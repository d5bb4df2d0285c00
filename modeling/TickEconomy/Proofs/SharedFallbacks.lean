import TickEconomy.Proofs.FallbackPath
import TickEconomy.Table

/-!
# Building shared fallbacks once

A rule that is the fallback of several need not be built for each of them: the rules of a text can
be built one after the other, with a table of those that are there (`Draft.build`,
`Draft.buildAll`). A rule in the table is taken from it as it is, whatever way led to it. This makes
no difference (`Draft.buildAll_eq_linkAll`). A rule is in the table only when the route from it
settles, so the table holds nothing but rules as they are linked (`Draft.HoldsLinked`), and no way
to a rule from which the route settles ends in an error behind it
(`Signpost.Route.fault_eq_none_of_settles`).
-/

set_option autoImplicit false
set_option relaxedAutoImplicit false

namespace TickEconomy

/-! ### Routes through a rule whose own route settles -/

namespace Signpost

variable {posts : List Signpost}

namespace Route

variable {first post : Signpost} {passed rest way : List Signpost} {fault : Option ParseError}

/-- Where the route from its beginning settles, a path ends at a rule whose fallback is there, if it
has one. -/
theorem target_mem_of_path (hnames : (posts.map name).Nodup) (h : Route posts post way none)
    {path : List Signpost} (hpath : IsPath posts path) (hstart : path.head? = some post)
    {last : Signpost} (hlast : path.getLast? = some last) {reference : FallbackReference}
    (hreference : last.reference = some reference) : reference.target ∈ posts.map name := by
  have hwhole : way ≠ path := by
    rintro rfl
    obtain ⟨other, hother, hends⟩ := h.ends
    obtain rfl := Option.some.inj (hother.symm.trans hlast)
    exact absurd (hends.reference_eq_none.symm.trans hreference) nofun
  rcases h.path.prefix_or_prefix hnames hpath (h.starts.trans hstart.symm) with hbegins | hbegins
  · exact absurd (h.eq_of_prefix hpath (h.nodup_of_path hnames hpath hstart) hbegins) hwhole
  · obtain ⟨more, rfl⟩ := hbegins
    cases more with
    | nil => exact absurd (List.append_nil path) hwhole
    | cons next more =>
      obtain ⟨reference', hreference', htarget⟩ :=
        (List.isChain_append.1 h.path.chain).2.2 last hlast next rfl
      obtain rfl := Option.some.inj (hreference.symm.trans hreference')
      rw [htarget]
      exact List.mem_map_of_mem (h.path.mem next (by simp))

/-- A route that passes a signpost from which the route settles does not end in an error. -/
theorem fault_eq_none_of_settles (hnames : (posts.map name).Nodup)
    (h : Route posts first (passed ++ post :: rest) fault) (hsettles : Route posts post way none) :
    fault = none := by
  have hpath : IsPath posts (post :: rest) := h.path.behind
  obtain ⟨last, hlast, hends⟩ := h.ends
  rw [List.getLast?_append_cons] at hlast
  cases hends with
  | settled => rfl
  | unknown hreference htarget =>
    exact absurd (hsettles.target_mem_of_path hnames hpath rfl hlast hreference) htarget
  | cycle hreference htarget =>
    obtain ⟨again, hagain, hname⟩ := List.mem_map.1 htarget
    have hto : LeadsTo last again := ⟨_, hreference, hname.symm⟩
    rcases List.mem_append.1 hagain with hpassed | hrest
    · -- The path leads back to a rule before the one that settles, and from there to it again.
      obtain ⟨before, between, rfl⟩ := List.append_of_mem hpassed
      have hwhole : IsPath posts (before ++ ((again :: (between ++ [post])) ++ rest)) := by
        simpa using h.path
      have hround : IsPath posts ((post :: rest) ++ again :: (between ++ [post])) :=
        hpath.append hwhole.behind.before hlast rfl hto
      have hnodup := hsettles.nodup_of_path hnames hround rfl
      exact absurd rfl (name_ne_of_nodup hnodup List.mem_cons_self (by simp))
    · have hround : IsPath posts ((post :: rest) ++ [again]) :=
        hpath.concat hlast hto (hpath.mem again hrest)
      have hnodup := hsettles.nodup_of_path hnames hround rfl
      exact absurd rfl (name_ne_of_nodup hnodup hrest List.mem_cons_self)

end Route

end Signpost

namespace Draft

/-- The rule of a draft, and the table with it and the rules that it falls back to. A rule that is
in the table already is taken from it. -/
def build (left : List Draft) (path : List String) (built : Table String Rule) (draft : Draft) :
    Except ParseError (Rule × Table String Rule) :=
  match built.get? draft.body.name with
  | some rule => .ok (rule, built)
  | none =>
    match draft.reference with
    | none =>
      let rule := Rule.ofBodies draft.body []
      .ok (rule, built.put draft.body.name rule)
    | some reference =>
      let passed := path ++ [draft.body.name]
      match found : left.find? fun other ↦ other.body.name = reference.target with
      | some next =>
        have := length_without_lt (List.mem_of_find?_eq_some found)
        match build (without left next.body.name) passed built next with
        | .ok (fallback, later) =>
          let rule := Rule.ofBodies draft.body fallback.bodies
          .ok (rule, later.put draft.body.name rule)
        | .error error => .error error
      | none =>
        if reference.target ∈ passed then
          .error
            { line := reference.line
              cause := .fallbackCycle draft.body.name (passed ++ [reference.target]) }
        else
          .error
            { line := reference.line
              cause := .fallbackUnknown draft.body.name reference.target }
termination_by left.length

/-- The rules of the drafts, built one after the other with a table of those that are there. -/
def buildAll (drafts : List Draft) : Table String Rule → List Draft → Except ParseError (List Rule)
  | _, [] => .ok []
  | built, draft :: later => do
    let (rule, next) ← build (without drafts draft.body.name) [] built draft
    let rules ← buildAll drafts next later
    return rule :: rules

/-- Every rule of the table is that of a draft of its name, as it is linked. -/
def HoldsLinked (drafts : List Draft) (built : Table String Rule) : Prop :=
  ∀ name rule, built.get? name = some rule →
    ∃ draft ∈ drafts, draft.body.name = name ∧ link drafts draft = .ok rule

variable {drafts : List Draft}

open Signpost

/-- From a draft that is reached, following fallbacks comes to the bodies with which it is
linked. -/
theorem followFallbacks_eq_ok_iff_link
    (hdistinct : ((drafts.map signpost).map Signpost.name).Nodup) {passed left : List Draft}
    {path : List String} {draft : Draft} (hdraft : draft ∈ drafts)
    (hreaches : Reaches drafts passed left draft)
    (hnames : path ++ [draft.body.name] = ((passed ++ [draft]).map signpost).map Signpost.name)
    {bodies : List RuleBody} :
    followFallbacks left path draft = .ok bodies ↔
      link drafts draft = .ok (Rule.ofBodies draft.body bodies) := by
  obtain ⟨first, hfirst⟩ : ∃ first, ((passed ++ [draft]).map signpost).head? = some first := by
    cases passed <;> exact ⟨_, rfl⟩
  obtain ⟨rest, fault, hrest, hroute, hfollow⟩ :=
    exists_route_of_followFallbacks hreaches hfirst hnames
  obtain ⟨rest', fault', hrest', hroute', hlink⟩ := exists_route_of_link hdraft
  rw [List.map_append, List.map_cons] at hroute
  have hsame : fault = none ∨ fault' = none → fault = none ∧ fault' = none ∧ rest = rest' := by
    intro hnone
    have hsettles : fault = none := by
      rcases hnone with rfl | rfl
      · rfl
      · exact hroute.fault_eq_none_of_settles hdistinct hroute'
    subst hsettles
    obtain ⟨hway, hfault⟩ := (hroute.behind (passed.map signpost)).unique hdistinct hroute'
    exact ⟨rfl, hfault.symm, eq_of_map_signpost_eq hdistinct hrest hrest' (List.cons.inj hway).2⟩
  rw [hfollow, hlink]
  constructor
  · intro h
    cases fault with
    | some error => cases h
    | none =>
      obtain ⟨-, rfl, rfl⟩ := hsame (.inl rfl)
      cases h
      rfl
  · intro h
    cases fault' with
    | some error => cases h
    | none =>
      obtain ⟨rfl, -, rfl⟩ := hsame (.inr rfl)
      cases h
      rfl

/-- The table holds linked rules when a linked rule is put into it. -/
theorem HoldsLinked.put {built : Table String Rule} (h : HoldsLinked drafts built) {draft : Draft}
    (hdraft : draft ∈ drafts) {rule : Rule} (hlink : link drafts draft = .ok rule) :
    HoldsLinked drafts (built.put draft.body.name rule) := by
  intro name other hother
  rw [Table.get?_put] at hother
  split_ifs at hother with hname
  · exact ⟨draft, hdraft, hname, Option.some.inj hother ▸ hlink⟩
  · exact h name other hother

/-- Building a draft comes to the rule with the bodies that following its fallbacks comes to, with a
table of linked rules, or to the same error. -/
inductive BuildsAs (drafts : List Draft) (draft : Draft) :
    Except ParseError (List RuleBody) → Except ParseError (Rule × Table String Rule) → Prop
  | ok {bodies : List RuleBody} {later : Table String Rule} (hlater : HoldsLinked drafts later) :
      BuildsAs drafts draft (.ok bodies) (.ok (Rule.ofBodies draft.body bodies, later))
  | error {error : ParseError} : BuildsAs drafts draft (.error error) (.error error)

/-- From a draft that is reached, building comes to what following fallbacks comes to. -/
theorem buildsAs_of_reaches (hdistinct : ((drafts.map signpost).map Signpost.name).Nodup)
    {passed left : List Draft} {path : List String} {draft : Draft} (hdraft : draft ∈ drafts)
    {built : Table String Rule} (hbuilt : HoldsLinked drafts built)
    (hreaches : Reaches drafts passed left draft)
    (hnames : path ++ [draft.body.name] = ((passed ++ [draft]).map signpost).map Signpost.name) :
    BuildsAs drafts draft (followFallbacks left path draft) (build left path built draft) := by
  fun_induction build left path built draft generalizing passed with
  | case1 left path draft rule hrule =>
    obtain ⟨other, hother, hname, hlink⟩ := hbuilt _ _ hrule
    obtain rfl : other = draft := by
      rw [List.map_map] at hdistinct
      exact List.inj_on_of_nodup_map hdistinct hother hdraft hname
    have hrebuilt : Rule.ofBodies other.body rule.fallbacks = rule := by
      rw [← (bodies_of_link hlink).1]
      rfl
    rw [← hrebuilt] at hlink
    rw [(followFallbacks_eq_ok_iff_link hdistinct hdraft hreaches hnames).2 hlink, ← hrebuilt]
    exact .ok hbuilt
  | case2 left path draft hnew hnone =>
    have hfollow : followFallbacks left path draft = .ok [] := followFallbacks_of_none hnone
    have hlink := (followFallbacks_eq_ok_iff_link hdistinct hdraft hreaches hnames).1 hfollow
    rw [hfollow]
    exact .ok (hbuilt.put hdraft hlink)
  | case3 left path draft hnew reference hreference _ next hfound _ fallback later hbuild =>
    rename_i ih
    have hnext := ((hreaches.mem_left next).1 (List.mem_of_find?_eq_some hfound)).1
    have hbuilds := ih hnext (hreaches.next hreference hfound)
      ((congrArg (· ++ [next.body.name]) hnames).trans (names_concat _ next).symm)
    rw [hbuild] at hbuilds
    generalize hnextFollow : followFallbacks (without left next.body.name)
      (path ++ [draft.body.name]) next = followed at hbuilds
    cases hbuilds with
    | @ok bodies _ hlater =>
      have hfollow : followFallbacks left path draft = .ok (next.body :: bodies) := by
        rw [followFallbacks_of_found hreference hfound, hnextFollow]
        rfl
      have hlink := (followFallbacks_eq_ok_iff_link hdistinct hdraft hreaches hnames).1 hfollow
      rw [hfollow]
      exact .ok (hlater.put hdraft hlink)
  | case4 left path draft hnew reference hreference _ next hfound _ error hbuild =>
    rename_i ih
    have hnext := ((hreaches.mem_left next).1 (List.mem_of_find?_eq_some hfound)).1
    have hbuilds := ih hnext (hreaches.next hreference hfound)
      ((congrArg (· ++ [next.body.name]) hnames).trans (names_concat _ next).symm)
    rw [hbuild] at hbuilds
    rw [followFallbacks_of_found hreference hfound]
    generalize followFallbacks (without left next.body.name) (path ++ [draft.body.name]) next =
      followed at hbuilds ⊢
    cases hbuilds with
    | error => exact .error
  | case5 left path draft hnew reference hreference _ hnone =>
    rename_i hmem
    rw [followFallbacks_of_not_found hreference hnone, if_pos hmem]
    exact .error
  | case6 left path draft hnew reference hreference _ hnone =>
    rename_i hmem
    rw [followFallbacks_of_not_found hreference hnone, if_neg hmem]
    exact .error

/-- What a list of drafts comes to when they are built one after the other is what they come to when
each is linked on its own. -/
theorem buildAll_eq_mapM (hdistinct : ((drafts.map signpost).map Signpost.name).Nodup)
    {later : List Draft} (hlater : ∀ draft ∈ later, draft ∈ drafts) {built : Table String Rule}
    (hbuilt : HoldsLinked drafts built) :
    buildAll drafts built later = later.mapM (link drafts) := by
  induction later generalizing built with
  | nil => rfl
  | cons draft later ih =>
    obtain ⟨hdraft, hlater⟩ := List.forall_mem_cons.1 hlater
    have hbuild := buildsAs_of_reaches hdistinct hdraft hbuilt (reaches_self hdraft)
      (List.nil_append _)
    rw [buildAll, List.mapM_cons, link]
    generalize followFallbacks (without drafts draft.body.name) [] draft = followed at hbuild ⊢
    generalize build (without drafts draft.body.name) [] built draft = result at hbuild ⊢
    cases hbuild with
    | error => rfl
    | @ok bodies next hnext =>
      exact congrArg (· >>= fun rules ↦ pure (Rule.ofBodies draft.body bodies :: rules))
        (ih hlater hnext)

/-- The rules of a text with distinct names are the same, and so are its errors, when each rule is
built once. -/
theorem buildAll_eq_linkAll (hdistinct : ((drafts.map signpost).map Signpost.name).Nodup) :
    buildAll drafts {} drafts = linkAll drafts :=
  buildAll_eq_mapM hdistinct (fun _ hdraft ↦ hdraft) fun _ _ hrule ↦ absurd hrule nofun

end Draft

end TickEconomy
