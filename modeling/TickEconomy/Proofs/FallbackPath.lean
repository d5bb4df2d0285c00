import Mathlib.Data.List.Chain
import TickEconomy.Proofs.RuleBlock

/-!
# Where fallbacks lead

A rule of a text points to its fallback as a signpost does: by a name, in some line (`Signpost`).
The signposts of a text lead from rule to rule, and as names are distinct there is only one way on
from each. A route goes from a first signpost as far as it can without meeting a rule twice
(`Signpost.Route`). It settles at a rule without a fallback, or ends in an error: the last rule
names a rule that is not there, or one that the route has passed (`Signpost.Ends`). There is only
one route from each rule (`Signpost.Route.unique`), and following the fallbacks of a rule takes it
(`Draft.exists_route_of_link`).

For a text whose blocks are in order and have distinct names, `Rule.parse_follows_fallbacks` says
what comes of it. The text is accepted when every fallback is a rule of the text and no path along
fallbacks meets a rule twice, and the fallback of a rule is then the rule of that name in the list.
Otherwise the error is that of the first rule, in the order of the text, whose route ends in one.
-/

set_option autoImplicit false
set_option relaxedAutoImplicit false

namespace TickEconomy

/-! ### Routes -/

/-- The name of a rule and the fallback it names. -/
structure Signpost where
  /-- The name of the rule. -/
  name : String
  /-- The fallback, if the rule has one. -/
  reference : Option FallbackReference
  deriving DecidableEq, Repr

/-- The name of a draft and the fallback it names. -/
def Draft.signpost (draft : Draft) : Signpost where
  name := draft.body.name
  reference := draft.reference

/-- The name of a block and the fallback it names. -/
def Block.signpost (block : Block) : Signpost where
  name := block.name
  reference := block.reference?

namespace Signpost

/-- The fallback of the first is the second. -/
def LeadsTo (first second : Signpost) : Prop :=
  ∃ reference, first.reference = some reference ∧ reference.target = second.name

/-- Each signpost of the path is one of those given and leads to the next. -/
structure IsPath (posts path : List Signpost) : Prop where
  mem : ∀ post ∈ path, post ∈ posts
  chain : path.IsChain LeadsTo

/-- How a way ends at its last signpost: without an error, or with one. -/
inductive Ends (posts way : List Signpost) (last : Signpost) : Option ParseError → Prop
  /-- There is no fallback. -/
  | settled (hreference : last.reference = none) : Ends posts way last none
  /-- The fallback is none of the rules. -/
  | unknown {reference : FallbackReference} (hreference : last.reference = some reference)
      (htarget : reference.target ∉ posts.map name) :
      Ends posts way last (some
        { line := reference.line
          cause := .fallbackUnknown last.name reference.target })
  /-- The fallback is a rule that the way has passed. -/
  | cycle {reference : FallbackReference} (hreference : last.reference = some reference)
      (htarget : reference.target ∈ way.map name) :
      Ends posts way last (some
        { line := reference.line
          cause := .fallbackCycle last.name (way.map name ++ [reference.target]) })

/-- The way goes from the first signpost as far as it can without meeting a name twice, and ends
with or without an error. -/
structure Route (posts : List Signpost) (first : Signpost) (way : List Signpost)
    (fault : Option ParseError) : Prop where
  path : IsPath posts way
  starts : way.head? = some first
  nodup : (way.map name).Nodup
  ends : ∃ last, way.getLast? = some last ∧ Ends posts way last fault

variable {posts : List Signpost}

theorem IsPath.tail {post : Signpost} {path : List Signpost} (h : IsPath posts (post :: path)) :
    IsPath posts path :=
  ⟨fun other hother ↦ h.mem other (List.mem_cons_of_mem post hother), h.chain.tail⟩

/-- The beginning of a path is a path. -/
theorem IsPath.before {before behind : List Signpost} (h : IsPath posts (before ++ behind)) :
    IsPath posts before :=
  ⟨fun post hpost ↦ h.mem post (List.mem_append_left behind hpost),
    (List.isChain_append.1 h.chain).1⟩

/-- The end of a path is a path. -/
theorem IsPath.behind {before behind : List Signpost} (h : IsPath posts (before ++ behind)) :
    IsPath posts behind :=
  ⟨fun post hpost ↦ h.mem post (List.mem_append_right before hpost),
    (List.isChain_append.1 h.chain).2.1⟩

/-- A path goes on with one that begins where its last signpost leads. -/
theorem IsPath.append {path behind : List Signpost} (h : IsPath posts path)
    (hbehind : IsPath posts behind) {last next : Signpost} (hlast : path.getLast? = some last)
    (hnext : behind.head? = some next) (hto : LeadsTo last next) :
    IsPath posts (path ++ behind) where
  mem := List.forall_mem_append.2 ⟨h.mem, hbehind.mem⟩
  chain := by
    refine List.isChain_append.2 ⟨h.chain, hbehind.chain, ?_⟩
    intro other hother following hfollowing
    obtain rfl : last = other := Option.some.inj (hlast.symm.trans hother)
    obtain rfl : next = following := Option.some.inj (hnext.symm.trans hfollowing)
    exact hto

/-- A path goes on to where its last signpost leads. -/
theorem IsPath.concat {path : List Signpost} (h : IsPath posts path) {last next : Signpost}
    (hlast : path.getLast? = some last) (hto : LeadsTo last next) (hnext : next ∈ posts) :
    IsPath posts (path ++ [next]) :=
  h.append ⟨by simpa using hnext, by simp⟩ hlast rfl hto

/-- As names are distinct, a signpost leads to one signpost only. -/
theorem LeadsTo.unique (hnames : (posts.map name).Nodup) {first second other : Signpost}
    (hsecond : second ∈ posts) (hother : other ∈ posts) (hto : LeadsTo first second)
    (hto' : LeadsTo first other) : second = other := by
  obtain ⟨reference, hreference, htarget⟩ := hto
  obtain ⟨reference', hreference', htarget'⟩ := hto'
  have hsame : reference = reference' := Option.some.inj (hreference.symm.trans hreference')
  refine List.inj_on_of_nodup_map hnames hsecond hother ?_
  rw [← htarget, ← htarget', hsame]

/-- Of two paths with the same beginning, one goes on where the other ends. -/
theorem IsPath.prefix_or_prefix (hnames : (posts.map name).Nodup) {path other : List Signpost}
    (hpath : IsPath posts path) (hother : IsPath posts other) (hstart : path.head? = other.head?) :
    path <+: other ∨ other <+: path := by
  induction path generalizing other with
  | nil => exact .inl List.nil_prefix
  | cons post path ih =>
    cases other with
    | nil => exact .inr List.nil_prefix
    | cons post' other =>
      obtain rfl : post = post' := Option.some.inj hstart
      have hnext : path = [] ∨ other = [] ∨ path.head? = other.head? := by
        cases path with
        | nil => exact .inl rfl
        | cons next path =>
          cases other with
          | nil => exact .inr (.inl rfl)
          | cons next' other =>
            have hto := (List.isChain_cons_cons.1 hpath.chain).1
            have hto' := (List.isChain_cons_cons.1 hother.chain).1
            have hsame : next = next' :=
              hto.unique hnames (hpath.mem next (by simp)) (hother.mem next' (by simp)) hto'
            exact .inr (.inr (congrArg some hsame))
      rcases hnext with rfl | rfl | hnext
      · exact .inl (by simp)
      · exact .inr (by simp)
      · rw [List.prefix_cons_inj, List.prefix_cons_inj]
        exact ih hpath.tail hother.tail hnext

/-- Where a name is met once at most, no name stands both in the first part of a path and in the
second. -/
theorem name_ne_of_nodup {before behind : List Signpost}
    (h : ((before ++ behind).map name).Nodup) {first second : Signpost} (hfirst : first ∈ before)
    (hsecond : second ∈ behind) : first.name ≠ second.name := by
  rw [List.map_append] at h
  exact (List.nodup_append.1 h).2.2 _ (List.mem_map_of_mem hfirst) _ (List.mem_map_of_mem hsecond)

/-- A way that ends without an error ends at a rule without a fallback. -/
theorem Ends.reference_eq_none {way : List Signpost} {last : Signpost}
    (h : Ends posts way last none) : last.reference = none := by
  cases h with
  | settled hreference => exact hreference

/-- A way does not end in two manners. -/
theorem Ends.unique {way : List Signpost} (hmem : ∀ post ∈ way, post ∈ posts) {last : Signpost}
    {fault fault' : Option ParseError} (h : Ends posts way last fault)
    (h' : Ends posts way last fault') : fault = fault' := by
  have hnames : ∀ target ∈ way.map name, target ∈ posts.map name :=
    fun target htarget ↦ List.map_subset name hmem htarget
  cases h with
  | settled hreference =>
    cases h' with
    | settled => rfl
    | unknown hreference' | cycle hreference' =>
      exact absurd (hreference.symm.trans hreference') nofun
  | unknown hreference htarget =>
    cases h' with
    | settled hreference' => exact absurd (hreference.symm.trans hreference') nofun
    | unknown hreference' =>
      obtain rfl := Option.some.inj (hreference.symm.trans hreference')
      rfl
    | cycle hreference' htarget' =>
      obtain rfl := Option.some.inj (hreference.symm.trans hreference')
      exact absurd (hnames _ htarget') htarget
  | cycle hreference htarget =>
    cases h' with
    | settled hreference' => exact absurd (hreference.symm.trans hreference') nofun
    | unknown hreference' htarget' =>
      obtain rfl := Option.some.inj (hreference.symm.trans hreference')
      exact absurd (hnames _ htarget) htarget'
    | cycle hreference' =>
      obtain rfl := Option.some.inj (hreference.symm.trans hreference')
      rfl

namespace Route

variable {first : Signpost} {way way' : List Signpost} {fault fault' : Option ParseError}

/-- Where a path goes on behind a route, the route ends in an error, and the path meets a name of
the route again. -/
theorem mem_names_of_path_append (h : Route posts first way fault) {next : Signpost}
    {more : List Signpost} (hpath : IsPath posts (way ++ next :: more)) :
    fault ≠ none ∧ next.name ∈ way.map name := by
  obtain ⟨last, hlast, hends⟩ := h.ends
  have hto : LeadsTo last next :=
    (List.isChain_append.1 hpath.chain).2.2 last (by simp [hlast]) next (by simp)
  obtain ⟨reference, hreference, htarget⟩ := hto
  cases hends with
  | settled hnone => exact absurd (hnone.symm.trans hreference) nofun
  | unknown hnamed hunknown =>
    obtain rfl := Option.some.inj (hnamed.symm.trans hreference)
    refine absurd ?_ hunknown
    exact htarget ▸ List.mem_map_of_mem (hpath.mem next (by simp))
  | cycle hnamed hpassed =>
    obtain rfl := Option.some.inj (hnamed.symm.trans hreference)
    exact ⟨nofun, htarget ▸ hpassed⟩

/-- A path without repeated names that begins with a route is the route. -/
theorem eq_of_prefix (h : Route posts first way fault) {path : List Signpost}
    (hpath : IsPath posts path) (hnodup : (path.map name).Nodup) (hbegins : way <+: path) :
    way = path := by
  obtain ⟨more, rfl⟩ := hbegins
  cases more with
  | nil => rw [List.append_nil]
  | cons next more =>
    obtain ⟨again, hagain, hname⟩ := List.mem_map.1 (h.mem_names_of_path_append hpath).2
    exact absurd hname (name_ne_of_nodup hnodup hagain List.mem_cons_self)

/-- There is one route from each signpost, and it ends in one manner. -/
theorem unique (hnames : (posts.map name).Nodup) (h : Route posts first way fault)
    (h' : Route posts first way' fault') : way = way' ∧ fault = fault' := by
  have hway : way = way' := by
    rcases h.path.prefix_or_prefix hnames h'.path (h.starts.trans h'.starts.symm) with hway | hway
    · exact h.eq_of_prefix h'.path h'.nodup hway
    · exact (h'.eq_of_prefix h.path h.nodup hway).symm
  subst hway
  obtain ⟨last, hlast, hends⟩ := h.ends
  obtain ⟨last', hlast', hends'⟩ := h'.ends
  obtain rfl := Option.some.inj (hlast.symm.trans hlast')
  exact ⟨rfl, hends.unique h.path.mem hends'⟩

/-- Behind a signpost that it passes, a route that settles is the route from this signpost. -/
theorem behind (passed : List Signpost) {post : Signpost} {rest : List Signpost}
    (h : Route posts first (passed ++ post :: rest) none) :
    Route posts post (post :: rest) none := by
  obtain ⟨last, hlast, hends⟩ := h.ends
  have hnodup := h.nodup
  rw [List.map_append] at hnodup
  rw [List.getLast?_append_cons] at hlast
  exact ⟨h.path.behind, rfl, (List.nodup_append.1 hnodup).2.1, last, hlast,
    .settled hends.reference_eq_none⟩

/-- A route that settles where it starts has no fallback to follow. -/
theorem reference_eq_none (h : Route posts first [first] none) : first.reference = none := by
  obtain ⟨last, hlast, hends⟩ := h.ends
  obtain rfl := Option.some.inj hlast
  exact hends.reference_eq_none

/-- Where every fallback is one of the rules and no path meets a name twice, routes settle. -/
theorem fault_eq_none (h : Route posts first way fault)
    (hknown : ∀ post ∈ posts, ∀ reference, post.reference = some reference →
      reference.target ∈ posts.map name)
    (hnodup : ∀ path, IsPath posts path → (path.map name).Nodup) : fault = none := by
  obtain ⟨last, hlast, hends⟩ := h.ends
  cases hends with
  | settled => rfl
  | unknown hreference htarget =>
    have hmem := h.path.mem last (List.mem_of_getLast? hlast)
    exact absurd (hknown last hmem _ hreference) htarget
  | cycle hreference htarget =>
    obtain ⟨again, hagain, hname⟩ := List.mem_map.1 htarget
    have hpath := h.path.concat hlast ⟨_, hreference, hname.symm⟩ (h.path.mem again hagain)
    exact absurd rfl (name_ne_of_nodup (hnodup _ hpath) hagain List.mem_cons_self)

/-- A path with the beginning of a route that settles meets no name twice. -/
theorem nodup_of_path (hnames : (posts.map name).Nodup) (h : Route posts first way none)
    {path : List Signpost} (hpath : IsPath posts path) (hstart : path.head? = some first) :
    (path.map name).Nodup := by
  rcases h.path.prefix_or_prefix hnames hpath (h.starts.trans hstart.symm) with hbegins | hbegins
  · obtain ⟨more, rfl⟩ := hbegins
    cases more with
    | nil => simpa using h.nodup
    | cons next more => exact absurd rfl (h.mem_names_of_path_append hpath).1
  · exact h.nodup.sublist (hbegins.sublist.map name)

end Route

end Signpost

/-! ### Following fallbacks -/

namespace Draft

open Signpost

/-- What comes of a way that ends with or without an error. -/
def outcome {Result : Type} (fault : Option ParseError) (result : Result) :
    Except ParseError Result :=
  match fault with
  | some error => .error error
  | none => .ok result

/-- The drafts passed and the one reached form a path without repeated names, and the drafts left
are those with other names. -/
structure Reaches (all passed left : List Draft) (draft : Draft) : Prop where
  path : IsPath (all.map signpost) ((passed ++ [draft]).map signpost)
  nodup : (((passed ++ [draft]).map signpost).map Signpost.name).Nodup
  mem_left : ∀ other, other ∈ left ↔
    other ∈ all ∧ other.body.name ∉ ((passed ++ [draft]).map signpost).map Signpost.name

/-- The names of drafts to which one is added at the end. -/
theorem names_concat (passed : List Draft) (draft : Draft) :
    ((passed ++ [draft]).map signpost).map Signpost.name =
      (passed.map signpost).map Signpost.name ++ [draft.body.name] := by
  simp [signpost]

/-- A draft is reached from itself when its name is struck. -/
theorem reaches_self {all : List Draft} {draft : Draft} (hdraft : draft ∈ all) :
    Reaches all [] (without all draft.body.name) draft where
  path := ⟨by simpa using ⟨draft, hdraft, rfl⟩, by simp⟩
  nodup := by simp
  mem_left other := by simp [without, signpost]

/-- From a draft that is reached, its fallback among those left is reached when the name of this is
struck. -/
theorem Reaches.next {all passed left : List Draft} {draft next : Draft}
    {reference : FallbackReference} (h : Reaches all passed left draft)
    (hreference : draft.reference = some reference)
    (hfound : (left.find? fun other ↦ other.body.name = reference.target) = some next) :
    Reaches all (passed ++ [draft]) (without left next.body.name) next where
  path := by
    have htarget : next.body.name = reference.target := by simpa using List.find?_some hfound
    have hnext := (h.mem_left next).1 (List.mem_of_find?_eq_some hfound)
    have hmem := List.mem_map_of_mem (f := signpost) hnext.1
    have hto : LeadsTo draft.signpost next.signpost := ⟨reference, hreference, htarget.symm⟩
    rw [List.map_append]
    exact h.path.concat (by simp) hto hmem
  nodup := by
    rw [List.map_append, List.map_append, List.nodup_append]
    refine ⟨h.nodup, by simp, ?_⟩
    intro name hname other hother hsame
    obtain rfl : other = next.body.name := by simpa [signpost] using hother
    have hnext := (h.mem_left next).1 (List.mem_of_find?_eq_some hfound)
    exact hnext.2 (hsame ▸ hname)
  mem_left other := by
    rw [without, List.mem_filter, h.mem_left, List.map_append, List.map_append, List.mem_append]
    simp [signpost, and_assoc]

/-- A draft that is reached and names no fallback ends the route. -/
theorem Reaches.route {all passed left : List Draft} {draft : Draft} {first : Signpost}
    {fault : Option ParseError} (h : Reaches all passed left draft)
    (hfirst : ((passed ++ [draft]).map signpost).head? = some first)
    (hends : Ends (all.map signpost) ((passed ++ [draft]).map signpost) draft.signpost fault) :
    Route (all.map signpost) first ((passed ++ [draft]).map signpost) fault :=
  ⟨h.path, hfirst, h.nodup, draft.signpost, by simp, hends⟩

/-- The drafts behind the fallback of a draft that is reached, with this fallback, are those behind
the draft. -/
theorem Reaches.route_of_next {all passed left rest : List Draft} {draft next : Draft}
    {first : Signpost} {fault : Option ParseError} (h : Reaches all passed left draft)
    {target : String} (hfound : (left.find? fun other ↦ other.body.name = target) = some next)
    (hrest : ∀ other ∈ rest, other ∈ all)
    (hroute : Route (all.map signpost) first ((passed ++ [draft] ++ next :: rest).map signpost)
      fault) :
    (∀ other ∈ next :: rest, other ∈ all) ∧
      Route (all.map signpost) first ((passed ++ draft :: next :: rest).map signpost) fault := by
  have hnext := ((h.mem_left next).1 (List.mem_of_find?_eq_some hfound)).1
  rw [List.append_assoc] at hroute
  exact ⟨List.forall_mem_cons.2 ⟨hnext, hrest⟩, hroute⟩

/-- From a draft that is reached, the fallbacks are followed along its route. -/
theorem exists_route_of_followFallbacks {all passed left : List Draft} {path : List String}
    {draft : Draft} {first : Signpost} (hreaches : Reaches all passed left draft)
    (hfirst : ((passed ++ [draft]).map signpost).head? = some first)
    (hnames : path ++ [draft.body.name] =
      ((passed ++ [draft]).map signpost).map Signpost.name) :
    ∃ rest fault, (∀ other ∈ rest, other ∈ all) ∧
      Route (all.map signpost) first ((passed ++ draft :: rest).map signpost) fault ∧
      followFallbacks left path draft = outcome fault (rest.map Draft.body) := by
  fun_induction followFallbacks left path draft generalizing passed with
  | case1 left path draft hnone =>
    exact ⟨[], none, by simp, hreaches.route hfirst (.settled hnone), rfl⟩
  | case2 left path draft reference hreference _ next hfound _ later hresult =>
    rename_i ih
    obtain ⟨rest, fault, hrest, hroute, houtcome⟩ :=
      ih (hreaches.next hreference hfound) (by simpa using hfirst)
        ((congrArg (· ++ [next.body.name]) hnames).trans (names_concat _ next).symm)
    obtain ⟨hbehind, hwhole⟩ := hreaches.route_of_next hfound hrest hroute
    cases fault with
    | some error => cases hresult.symm.trans houtcome
    | none =>
      obtain rfl : later = rest.map Draft.body := Except.ok.inj (hresult.symm.trans houtcome)
      exact ⟨next :: rest, none, hbehind, hwhole, rfl⟩
  | case3 left path draft reference hreference _ next hfound _ error hresult =>
    rename_i ih
    obtain ⟨rest, fault, hrest, hroute, houtcome⟩ :=
      ih (hreaches.next hreference hfound) (by simpa using hfirst)
        ((congrArg (· ++ [next.body.name]) hnames).trans (names_concat _ next).symm)
    obtain ⟨hbehind, hwhole⟩ := hreaches.route_of_next hfound hrest hroute
    cases fault with
    | none => cases hresult.symm.trans houtcome
    | some error' =>
      obtain rfl : error = error' := Except.error.inj (hresult.symm.trans houtcome)
      exact ⟨next :: rest, some error, hbehind, hwhole, rfl⟩
  | case4 left path draft reference hreference _ _ =>
    rename_i hpassed
    refine ⟨[], some _, by simp, hreaches.route hfirst (.cycle hreference (hnames ▸ hpassed)), ?_⟩
    rw [← hnames]
    rfl
  | case5 left path draft reference hreference _ hnone =>
    rename_i hpassed
    refine ⟨[], some _, by simp, hreaches.route hfirst (.unknown hreference ?_), rfl⟩
    intro htarget
    rw [List.map_map] at htarget
    obtain ⟨other, hother, hname⟩ := List.mem_map.1 htarget
    have hleft : other ∈ left := by
      refine (hreaches.mem_left other).2 ⟨hother, ?_⟩
      rw [← hnames]
      exact fun hmem ↦ hpassed (hname ▸ hmem)
    exact absurd (decide_eq_true hname) (List.find?_eq_none.1 hnone other hleft)

/-- A draft of a text is linked along its route. -/
theorem exists_route_of_link {drafts : List Draft} {draft : Draft} (hdraft : draft ∈ drafts) :
    ∃ rest fault, (∀ other ∈ rest, other ∈ drafts) ∧
      Route (drafts.map signpost) draft.signpost ((draft :: rest).map signpost) fault ∧
      link drafts draft = outcome fault (Rule.ofBodies draft.body (rest.map Draft.body)) := by
  obtain ⟨rest, fault, hrest, hroute, hfollow⟩ :=
    exists_route_of_followFallbacks (reaches_self hdraft) rfl (List.nil_append _)
  refine ⟨rest, fault, hrest, hroute, ?_⟩
  unfold link
  rw [hfollow]
  cases fault <;> rfl

/-! ### Linking a text -/

variable {drafts : List Draft}

/-- A draft is linked when the route from it settles, and its error is otherwise that of the
route. -/
theorem link_iff_route (hnames : ((drafts.map signpost).map Signpost.name).Nodup) {draft : Draft}
    (hdraft : draft ∈ drafts) :
    ((∃ rule, link drafts draft = .ok rule) ↔
        ∃ way, Route (drafts.map signpost) draft.signpost way none) ∧
      ∀ error, link drafts draft = .error error ↔
        ∃ way, Route (drafts.map signpost) draft.signpost way (some error) := by
  obtain ⟨rest, fault, -, hroute, hlink⟩ := exists_route_of_link hdraft
  rw [hlink]
  cases fault with
  | none =>
    refine ⟨iff_of_true ⟨_, rfl⟩ ⟨_, hroute⟩, fun error ↦ iff_of_false nofun ?_⟩
    rintro ⟨way, hway⟩
    exact absurd (hroute.unique hnames hway).2 nofun
  | some error =>
    refine ⟨iff_of_false nofun ?_, fun error' ↦ ⟨?_, ?_⟩⟩
    · rintro ⟨way, hway⟩
      exact absurd (hroute.unique hnames hway).2 nofun
    · intro h
      exact ⟨_, Except.error.inj h ▸ hroute⟩
    · rintro ⟨way, hway⟩
      exact congrArg Except.error (Option.some.inj (hroute.unique hnames hway).2)

/-- Linking fails with the error of the first draft whose route ends in one. -/
theorem linkAll_eq_error_iff (hnames : ((drafts.map signpost).map Signpost.name).Nodup)
    {error : ParseError} :
    linkAll drafts = .error error ↔
      ∃ earlier first later, drafts.map signpost = earlier ++ first :: later ∧
        (∀ post ∈ earlier, ∃ way, Route (drafts.map signpost) post way none) ∧
        ∃ way, Route (drafts.map signpost) first way (some error) := by
  unfold linkAll
  rw [mapM_eq_error_iff]
  constructor
  · rintro ⟨earlier, draft, later, hdrafts, hearlier, herror⟩
    have hmem : ∀ other ∈ earlier ++ [draft], other ∈ drafts := fun other hother ↦ by
      rw [hdrafts, List.append_cons]
      exact List.mem_append_left later hother
    refine ⟨earlier.map signpost, draft.signpost, later.map signpost, by rw [hdrafts]; simp, ?_, ?_⟩
    · intro post hpost
      obtain ⟨other, hother, rfl⟩ := List.mem_map.1 hpost
      have hlinked := hearlier other hother
      exact (link_iff_route hnames (hmem other (List.mem_append_left _ hother))).1.1 hlinked
    · exact ((link_iff_route hnames (hmem draft (by simp))).2 error).1 herror
  · rintro ⟨earlier, first, later, hposts, hearlier, hroute⟩
    obtain ⟨before, behind, hdrafts, rfl, hbehind⟩ := List.map_eq_append_iff.1 hposts
    obtain ⟨draft, after, rfl, rfl, rfl⟩ := List.map_eq_cons_iff.1 hbehind
    have hmem : ∀ other ∈ before ++ [draft], other ∈ drafts := fun other hother ↦ by
      rw [hdrafts, List.append_cons]
      exact List.mem_append_left after hother
    refine ⟨before, draft, after, hdrafts, ?_, ?_⟩
    · intro other hother
      have hsettles := hearlier other.signpost (List.mem_map_of_mem hother)
      exact (link_iff_route hnames (hmem other (List.mem_append_left _ hother))).1.2 hsettles
    · exact ((link_iff_route hnames (hmem draft (by simp))).2 error).2 hroute

/-- Linking succeeds when every fallback is one of the drafts and no path along fallbacks meets a
name twice. -/
theorem exists_linkAll_eq_ok_iff (hnames : ((drafts.map signpost).map Signpost.name).Nodup) :
    (∃ rules, linkAll drafts = .ok rules) ↔
      (∀ post ∈ drafts.map signpost, ∀ reference, post.reference = some reference →
        reference.target ∈ (drafts.map signpost).map Signpost.name) ∧
      ∀ path, IsPath (drafts.map signpost) path → (path.map Signpost.name).Nodup := by
  constructor
  · rintro ⟨rules, hrules⟩
    have hsettles : ∀ post ∈ drafts.map signpost,
        ∃ way, Route (drafts.map signpost) post way none := by
      intro post hpost
      obtain ⟨draft, hdraft, rfl⟩ := List.mem_map.1 hpost
      obtain ⟨rule, -, hrule⟩ :=
        exists_of_forall₂_of_mem (forall₂_of_mapM_eq_ok hrules).flip hdraft
      exact (link_iff_route hnames hdraft).1.1 ⟨rule, hrule⟩
    refine ⟨?_, ?_⟩
    · intro post hpost reference hreference
      obtain ⟨way, hway⟩ := hsettles post hpost
      match way, hway with
      | [only], hway =>
        obtain rfl : only = post := Option.some.inj hway.starts
        exact absurd (hway.reference_eq_none.symm.trans hreference) nofun
      | first :: next :: more, hway =>
        obtain rfl : first = post := Option.some.inj hway.starts
        obtain ⟨reference', hreference', htarget⟩ := (List.isChain_cons_cons.1 hway.path.chain).1
        obtain rfl := Option.some.inj (hreference'.symm.trans hreference)
        rw [htarget]
        exact List.mem_map_of_mem (hway.path.mem next (by simp))
    · intro path hpath
      cases path with
      | nil => simp
      | cons post path =>
        obtain ⟨way, hway⟩ := hsettles post (hpath.mem post List.mem_cons_self)
        exact hway.nodup_of_path hnames hpath rfl
  · rintro ⟨hknown, hnodup⟩
    refine exists_mapM_eq_ok fun draft hdraft ↦ ?_
    obtain ⟨rest, fault, -, hroute, hlink⟩ := exists_route_of_link hdraft
    obtain rfl := hroute.fault_eq_none hknown hnodup
    exact ⟨_, hlink⟩

/-- A draft that is linked becomes the rule along its route. -/
theorem exists_route_of_link_eq_ok {draft : Draft} (hdraft : draft ∈ drafts) {rule : Rule}
    (h : link drafts draft = .ok rule) :
    ∃ rest, (∀ other ∈ rest, other ∈ drafts) ∧
      Route (drafts.map signpost) draft.signpost ((draft :: rest).map signpost) none ∧
      rule = Rule.ofBodies draft.body (rest.map Draft.body) := by
  obtain ⟨rest, fault, hrest, hroute, hlink⟩ := exists_route_of_link hdraft
  cases fault with
  | some error => exact absurd (h.symm.trans hlink) nofun
  | none => exact ⟨rest, hrest, hroute, Except.ok.inj (h.symm.trans hlink)⟩

/-- Drafts of a text with the same signposts are the same. -/
theorem eq_of_map_signpost_eq (hnames : ((drafts.map signpost).map Signpost.name).Nodup)
    {firsts seconds : List Draft} (hfirsts : ∀ draft ∈ firsts, draft ∈ drafts)
    (hseconds : ∀ draft ∈ seconds, draft ∈ drafts)
    (h : firsts.map signpost = seconds.map signpost) : firsts = seconds := by
  induction firsts generalizing seconds with
  | nil => exact (List.map_eq_nil_iff.1 h.symm).symm
  | cons first firsts ih =>
    obtain ⟨second, others, rfl, hsame, hrest⟩ := List.map_eq_cons_iff.1 h.symm
    obtain ⟨hfirst, hfirsts⟩ := List.forall_mem_cons.1 hfirsts
    obtain ⟨hsecond, hothers⟩ := List.forall_mem_cons.1 hseconds
    rw [ih hfirsts hothers hrest.symm,
      List.inj_on_of_nodup_map (List.Nodup.of_map _ hnames) hfirst hsecond hsame.symm]

end Draft

/-- The fallback of the rule is the one of the rules that has this name, or there is none. -/
def Rule.FallsBackTo (rules : List Rule) (target : Option String) (rule : Rule) : Prop :=
  match target with
  | none => rule.fallback? = none
  | some name => ∃ other ∈ rules, other.name = name ∧ rule.fallback? = some other

namespace Draft

variable {drafts : List Draft}

/-- The rules of a text that is linked have the handles of its drafts. -/
theorem handles_of_linkAll {rules : List Rule} (h : linkAll drafts = .ok rules) :
    (rules.map fun rule ↦ rule.handle) = drafts.map fun draft ↦ draft.body.handle :=
  map_eq_map_of_forall₂ (forall₂_of_mapM_eq_ok h).flip fun rule draft hlink ↦ by
    rw [(bodies_of_link hlink).1]

/-- The rules of a text that is linked have the bodies of its drafts and fall back to one another as
the drafts say. -/
theorem fallsBackTo_of_linkAll (hnames : ((drafts.map signpost).map Signpost.name).Nodup)
    {rules : List Rule} (h : linkAll drafts = .ok rules) :
    List.Forall₂ (fun draft rule ↦ rule.toRuleBody = draft.body ∧
      rule.FallsBackTo rules (draft.reference.map FallbackReference.target)) drafts rules := by
  have hlinks := forall₂_of_mapM_eq_ok h
  refine ((List.forall₂_and_left _ _).2 ⟨fun draft hdraft ↦ hdraft, hlinks⟩).imp ?_
  rintro draft rule ⟨hdraft, hlink⟩
  obtain ⟨rest, hrest, hroute, rfl⟩ := exists_route_of_link_eq_ok hdraft hlink
  refine ⟨rfl, ?_⟩
  cases rest with
  | nil =>
    have hnone : draft.reference = none := hroute.reference_eq_none
    rw [hnone]
    rfl
  | cons next more =>
    obtain ⟨hnext, hmore⟩ := List.forall_mem_cons.1 hrest
    obtain ⟨other, hother, hnextLink⟩ := exists_of_forall₂_of_mem hlinks.flip hnext
    obtain ⟨more', hmore', hroute', rfl⟩ := exists_route_of_link_eq_ok hnext hnextLink
    obtain ⟨reference, hreference, htarget⟩ := (List.isChain_cons_cons.1 hroute.path.chain).1
    have hsame : (next :: more).map signpost = (next :: more').map signpost :=
      ((hroute.behind [draft.signpost]).unique hnames hroute').1
    obtain rfl : more = more' :=
      eq_of_map_signpost_eq hnames hmore hmore' (List.cons.inj hsame).2
    have hnamed : draft.reference = some reference := hreference
    rw [hnamed]
    exact ⟨_, hother, htarget.symm, rfl⟩

end Draft

/-! ### Rule texts -/

namespace Rule

/-- A text whose blocks are in order and have distinct names is read into drafts, with the signposts
of its blocks, and comes to what linking these comes to. -/
theorem exists_drafts_of_lines (catalog : Catalog) (firstHandle : Nat) {lines : List (List Char)}
    (hfault : (Reading.ofLines lines).fault = none)
    (hblocks : ∀ block ∈ (Reading.ofLines lines).blocks, block.IsRule catalog)
    (hnames : ((Reading.ofLines lines).blocks.map Block.name).Nodup) :
    ∃ drafts, parse catalog firstHandle lines = Draft.linkAll drafts ∧
      drafts.map (fun draft ↦ draft.body.handle) = List.range' firstHandle drafts.length ∧
      List.Forall₂ (fun block draft ↦ ∃ handle, Draft.ofBlock catalog handle block = .ok draft)
        (Reading.ofLines lines).blocks drafts := by
  obtain ⟨drafts, hdrafts, hmatched⟩ := Draft.exists_drafts_of_blocks firstHandle hblocks hnames
  refine ⟨drafts, ?_, Draft.handles_of_blocks hdrafts, hmatched⟩
  unfold parse
  dsimp only
  rw [hdrafts]
  have hfinish : (Reading.ofLines lines).finish drafts = .ok drafts :=
    Reading.finish_eq_ok_iff.2 ⟨hfault, rfl⟩
  exact congrArg (· >>= Draft.linkAll) hfinish

/-- The draft of a block has the signpost of the block. -/
theorem signpost_of_ofBlock {catalog : Catalog} {handle : Nat} {block : Block} {draft : Draft}
    (h : Draft.ofBlock catalog handle block = .ok draft) : draft.signpost = block.signpost := by
  obtain ⟨clauses, -, rfl⟩ := Draft.ofBlock_eq_ok_iff.1 h
  rfl

/-- A text whose blocks are in order and have distinct names is accepted when every fallback is a
rule of the text and no path along fallbacks meets a rule twice. Then it gives one rule for each
block, in the order of the text, numbered without repetition, and a rule falls back to the one in
the list with the name that its last directive of this kind gives, if it has one. Otherwise the
error is that of the first block, in the order of the text, whose route ends in one. -/
theorem parse_follows_fallbacks (catalog : Catalog) (firstHandle : Nat) (lines : List (List Char))
    (hfault : (Reading.ofLines lines).fault = none)
    (hblocks : ∀ block ∈ (Reading.ofLines lines).blocks, block.IsRule catalog)
    (hnames : ((Reading.ofLines lines).blocks.map Block.name).Nodup) :
    let blocks := (Reading.ofLines lines).blocks
    let posts := blocks.map Block.signpost
    ((∃ rules, parse catalog firstHandle lines = .ok rules) ↔
      (∀ post ∈ posts, ∀ reference, post.reference = some reference →
        reference.target ∈ posts.map Signpost.name) ∧
      ∀ path, Signpost.IsPath posts path → (path.map Signpost.name).Nodup) ∧
    (∀ rules, parse catalog firstHandle lines = .ok rules →
      (rules.map fun rule ↦ rule.handle).Nodup ∧
      List.Forall₂ (fun block rule ↦ rule.name = block.name ∧
        rule.FallsBackTo rules (block.reference?.map FallbackReference.target)) blocks rules) ∧
    ∀ error, parse catalog firstHandle lines = .error error ↔
      ∃ earlier first later, posts = earlier ++ first :: later ∧
        (∀ post ∈ earlier, ∃ way, Signpost.Route posts post way none) ∧
        ∃ way, Signpost.Route posts first way (some error) := by
  intro blocks posts
  obtain ⟨drafts, hparse, hhandles, hmatched⟩ :=
    exists_drafts_of_lines catalog firstHandle hfault hblocks hnames
  have hposts : drafts.map Draft.signpost = posts :=
    map_eq_map_of_forall₂ hmatched.flip fun draft block ⟨_, hdraft⟩ ↦ signpost_of_ofBlock hdraft
  have hdistinct : ((drafts.map Draft.signpost).map Signpost.name).Nodup := by
    rw [hposts, List.map_map]
    exact hnames
  rw [hparse, ← hposts]
  refine ⟨Draft.exists_linkAll_eq_ok_iff hdistinct, ?_, fun error ↦
    Draft.linkAll_eq_error_iff hdistinct⟩
  intro rules hrules
  have hfalls := Draft.fallsBackTo_of_linkAll hdistinct hrules
  refine ⟨?_, forall₂_trans ?_ hmatched hfalls⟩
  · rw [Draft.handles_of_linkAll hrules, hhandles]
    exact List.nodup_range'
  · rintro block draft rule ⟨handle, hdraft⟩ ⟨hbody, hfallsBack⟩
    obtain ⟨clauses, -, rfl⟩ := Draft.ofBlock_eq_ok_iff.1 hdraft
    exact ⟨by rw [hbody]; rfl, hfallsBack⟩

/-- Two rules share a fallback that stands behind them in the text and has a fallback in turn. -/
theorem parse_follows_fallbacks_mill :
    let lines := ["rule mill", "onfail mill", "onfail sow", "end", "rule bake", "onfail sow", "end",
      "rule sow", "onfail rest", "end", "rule rest", "end"].map String.toList
    let blocks := (Reading.ofLines lines).blocks
    let sow : RuleBody := { handle := 2, name := "sow" }
    let rest : RuleBody := { handle := 3, name := "rest" }
    let rules := [ofBodies { handle := 0, name := "mill" } [sow, rest],
      ofBodies { handle := 1, name := "bake" } [sow, rest], ofBodies sow [rest], ofBodies rest []]
    (Reading.ofLines lines).fault = none ∧ (∀ block ∈ blocks, block.IsRule {}) ∧
      (blocks.map Block.name).Nodup ∧ parse {} 0 lines = .ok rules ∧
      List.Forall₂ (fun block rule ↦ rule.name = block.name ∧
        rule.FallsBackTo rules (block.reference?.map FallbackReference.target)) blocks rules := by
  intro lines blocks sow rest rules
  have hfault : (Reading.ofLines lines).fault = none := by decide +kernel
  have hblocks : ∀ block ∈ blocks, block.IsRule {} := by decide +kernel
  have hnames : (blocks.map Block.name).Nodup := by decide +kernel
  have hrules : parse {} 0 lines = .ok rules := by decide +kernel
  have hfollows := parse_follows_fallbacks {} 0 lines hfault hblocks hnames
  exact ⟨hfault, hblocks, hnames, hrules, (hfollows.2.1 rules hrules).2⟩

end Rule

end TickEconomy
