import Mathlib.Data.List.Nodup
import TickEconomy.Proofs.Sequence
import TickEconomy.Rule.Parse

/-!
# The rules of a text

The rules of a text are numbered in order (`Draft.handles_of_blocks`). On the way from a rule along
its fallbacks every rule passed is struck, so no name is met twice
(`Draft.nodup_names_of_followFallbacks`), and what is met are rules of the text. It follows that the
rules of a text carry distinct handles (`DistinctHandles`, `Rule.distinctHandles_of_parse`), and
that every fallback is the body of a rule of the text (`Rule.body_mem_of_parse`).
-/

set_option autoImplicit false
set_option relaxedAutoImplicit false

namespace TickEconomy

/-- Rules carry distinct handles: no two different bodies among them and their fallbacks share one,
and no rule comes back to one that it has fallen back from. -/
structure DistinctHandles (rules : List Rule) : Prop where
  body_eq : ∀ first ∈ rules.flatMap Rule.bodies, ∀ second ∈ rules.flatMap Rule.bodies,
    first.handle = second.handle → first = second
  nodup : ∀ rule ∈ rules, (rule.bodies.map RuleBody.handle).Nodup

namespace Draft

/-! ### Numbering -/

/-- A clause changes neither the handle of a draft nor its name. -/
theorem handle_name_add (draft : Draft) (line : Nat) (clause : Clause) :
    (draft.add line clause).body.handle = draft.body.handle ∧
      (draft.add line clause).body.name = draft.body.name := by
  cases clause <;> exact ⟨rfl, rfl⟩

/-- The draft of a block has the handle that it is given. -/
theorem handle_of_ofBlock {catalog : Catalog} {handle : Nat} {block : Block} {draft : Draft}
    (h : ofBlock catalog handle block = .ok draft) : draft.body.handle = handle := by
  refine of_foldlM_eq_ok (fun reached : Draft ↦ reached.body.handle = handle) ?_ rfl h
  intro directive _ reached next hreached hnext
  obtain ⟨clause, -, hclause⟩ := bind_eq_ok_iff.1 hnext
  simp only [pure, Except.pure, Except.ok.injEq] at hclause
  rw [← hclause, (handle_name_add reached directive.line clause).1, hreached]

/-- Drafts are numbered in the order of their blocks. -/
theorem handles_of_blocks {catalog : Catalog} {firstHandle : Nat} {blocks : List Block}
    {drafts : List Draft} (h : blocks.foldlM (addBlock catalog firstHandle) [] = .ok drafts) :
    drafts.map (fun draft ↦ draft.body.handle) = List.range' firstHandle drafts.length := by
  refine of_foldlM_eq_ok (fun reached : List Draft ↦
    reached.map (fun draft ↦ draft.body.handle) = List.range' firstHandle reached.length) ?_ rfl h
  intro block _ reached next hreached hnext
  unfold addBlock at hnext
  split_ifs at hnext with hkind hname hduplicate
  obtain ⟨draft, hdraft, heq⟩ := bind_eq_ok_iff.1 hnext
  simp only [pure, Except.pure, Except.ok.injEq] at heq
  subst heq
  rw [List.map_append, hreached, List.map_singleton, handle_of_ofBlock hdraft, List.length_append,
    List.length_singleton, List.range'_concat, Nat.one_mul]

/-- Two drafts of a text with the same handle are one. -/
theorem eq_of_handle_eq {catalog : Catalog} {firstHandle : Nat} {blocks : List Block}
    {drafts : List Draft} (h : blocks.foldlM (addBlock catalog firstHandle) [] = .ok drafts)
    {first second : Draft} (hfirst : first ∈ drafts) (hsecond : second ∈ drafts)
    (hhandle : first.body.handle = second.body.handle) : first = second := by
  have hnodup : (drafts.map fun draft ↦ draft.body.handle).Nodup := by
    rw [handles_of_blocks h]
    exact List.nodup_range'
  exact List.inj_on_of_nodup_map hnodup hfirst hsecond hhandle

/-! ### Following fallbacks -/

theorem followFallbacks_of_none {left : List Draft} {path : List String} {draft : Draft}
    (h : draft.reference = none) : followFallbacks left path draft = .ok [] := by
  unfold followFallbacks
  rw [h]

theorem followFallbacks_of_found {left : List Draft} {path : List String} {draft next : Draft}
    {reference : FallbackReference} (hreference : draft.reference = some reference)
    (hfound : (left.find? fun other ↦ other.body.name = reference.target) = some next) :
    followFallbacks left path draft = (next.body :: ·) <$>
      followFallbacks (without left next.body.name) (path ++ [draft.body.name]) next := by
  rw [followFallbacks, hreference]
  dsimp only
  split
  case h_1 other hother =>
    obtain rfl : other = next := Option.some.inj (hother.symm.trans hfound)
    cases followFallbacks (without left other.body.name) (path ++ [draft.body.name]) other <;> rfl
  case h_2 hnone => cases hnone.symm.trans hfound

theorem followFallbacks_of_not_found {left : List Draft} {path : List String} {draft : Draft}
    {reference : FallbackReference} (hreference : draft.reference = some reference)
    (hnone : (left.find? fun other ↦ other.body.name = reference.target) = none) :
    followFallbacks left path draft =
      if reference.target ∈ path ++ [draft.body.name] then
        .error
          { line := reference.line
            cause := .fallbackCycle draft.body.name
              (path ++ [draft.body.name] ++ [reference.target]) }
      else
        .error
          { line := reference.line
            cause := .fallbackUnknown draft.body.name reference.target } := by
  rw [followFallbacks, hreference]
  dsimp only
  split
  case h_1 other hother => cases hnone.symm.trans hother
  case h_2 => rfl

/-- What is left when a name is struck was there before and has another name. -/
theorem mem_without {drafts : List Draft} {draft : Draft} {name : String}
    (h : draft ∈ without drafts name) : draft ∈ drafts ∧ draft.body.name ≠ name := by
  simpa [without] using h

/-- Fallbacks are followed among the drafts that may be reached. -/
theorem mem_of_followFallbacks {drafts : List Draft} {path : List String} {draft : Draft}
    {bodies : List RuleBody} (h : followFallbacks drafts path draft = .ok bodies) :
    ∀ body ∈ bodies, ∃ other ∈ drafts, other.body = body := by
  fun_induction followFallbacks drafts path draft generalizing bodies with
  | case1 =>
    cases h
    simp
  | case2 drafts _ _ _ _ _ next hfound _ later hlater =>
    rename_i ih
    cases h
    intro body hbody
    rcases List.mem_cons.1 hbody with rfl | hbody
    · exact ⟨next, List.mem_of_find?_eq_some hfound, rfl⟩
    · obtain ⟨other, hother, heq⟩ := ih hlater body hbody
      exact ⟨other, (mem_without hother).1, heq⟩
  | case3 | case4 | case5 => cases h

/-- No name is met twice on the way along fallbacks. -/
theorem nodup_names_of_followFallbacks {drafts : List Draft} {path : List String} {draft : Draft}
    {bodies : List RuleBody} (h : followFallbacks drafts path draft = .ok bodies) :
    (bodies.map RuleBody.name).Nodup := by
  fun_induction followFallbacks drafts path draft generalizing bodies with
  | case1 =>
    cases h
    simp
  | case2 drafts _ _ _ _ _ next _ _ later hlater =>
    rename_i ih
    cases h
    refine List.nodup_cons.2 ⟨fun hmem ↦ ?_, ih hlater⟩
    obtain ⟨body, hbody, hname⟩ := List.mem_map.1 hmem
    obtain ⟨other, hother, heq⟩ := mem_of_followFallbacks hlater body hbody
    exact (mem_without hother).2 (heq ▸ hname)
  | case3 | case4 | case5 => cases h

/-- The rule that a draft becomes has the body of the draft and those of other drafts, under
distinct names. -/
theorem bodies_of_link {drafts : List Draft} {draft : Draft} {rule : Rule}
    (h : link drafts draft = .ok rule) :
    rule.toRuleBody = draft.body ∧ (∀ body ∈ rule.fallbacks, ∃ other ∈ drafts, other.body = body) ∧
      (rule.bodies.map RuleBody.name).Nodup := by
  obtain ⟨fallbacks, hfallbacks, heq⟩ := bind_eq_ok_iff.1 h
  simp only [pure, Except.pure, Except.ok.injEq] at heq
  subst heq
  have hmem := mem_of_followFallbacks hfallbacks
  refine ⟨rfl, fun body hbody ↦ ?_, List.nodup_cons.2 ⟨fun hname ↦ ?_,
    nodup_names_of_followFallbacks hfallbacks⟩⟩
  · obtain ⟨other, hother, heq⟩ := hmem body hbody
    exact ⟨other, (mem_without hother).1, heq⟩
  · obtain ⟨body, hbody, hname⟩ := List.mem_map.1 hname
    obtain ⟨other, hother, heq⟩ := hmem body hbody
    exact (mem_without hother).2 (heq ▸ hname)

end Draft

/-! ### Rules of a text -/

namespace Rule

/-- The rules of a text are its drafts, numbered in order and linked. -/
theorem drafts_of_parse {catalog : Catalog} {firstHandle : Nat} {lines : List (List Char)}
    {rules : List Rule} (h : parse catalog firstHandle lines = .ok rules) :
    ∃ blocks drafts, List.foldlM (Draft.addBlock catalog firstHandle) [] blocks = .ok drafts ∧
      List.Forall₂ (fun draft rule ↦ Draft.link drafts draft = .ok rule) drafts rules := by
  obtain ⟨drafts, hdrafts, hrest⟩ := bind_eq_ok_iff.1 h
  obtain ⟨complete, hcomplete, hlink⟩ := bind_eq_ok_iff.1 hrest
  obtain ⟨-, rfl⟩ := Reading.finish_eq_ok_iff.1 hcomplete
  exact ⟨_, drafts, hdrafts, forall₂_of_mapM_eq_ok hlink⟩

/-- Every body of a rule of a text is that of a draft of the text. -/
theorem exists_draft_of_body {drafts : List Draft} {rules : List Rule}
    (h : List.Forall₂ (fun draft rule ↦ Draft.link drafts draft = .ok rule) drafts rules)
    {rule : Rule} (hrule : rule ∈ rules) {body : RuleBody} (hbody : body ∈ rule.bodies) :
    ∃ draft ∈ drafts, draft.body = body := by
  obtain ⟨draft, hdraft, hlink⟩ := exists_of_forall₂_of_mem h hrule
  obtain ⟨hown, hothers, -⟩ := Draft.bodies_of_link hlink
  rcases List.mem_cons.1 hbody with rfl | hfallback
  · exact ⟨draft, hdraft, hown.symm⟩
  · exact hothers body hfallback

/-- The rules of a text carry distinct handles. -/
theorem distinctHandles_of_parse {catalog : Catalog} {firstHandle : Nat}
    {lines : List (List Char)} {rules : List Rule}
    (h : parse catalog firstHandle lines = .ok rules) : DistinctHandles rules := by
  obtain ⟨blocks, drafts, hdrafts, hlinks⟩ := drafts_of_parse h
  have hbodies : ∀ rule ∈ rules, ∀ body ∈ rule.bodies, ∃ draft ∈ drafts, draft.body = body :=
    fun rule hrule body hbody ↦ exists_draft_of_body hlinks hrule hbody
  have heq : ∀ first ∈ rules.flatMap bodies, ∀ second ∈ rules.flatMap bodies,
      first.handle = second.handle → first = second := by
    intro first hfirst second hsecond hhandle
    obtain ⟨rule, hrule, hbody⟩ := List.mem_flatMap.1 hfirst
    obtain ⟨other, hother, hsecondBody⟩ := List.mem_flatMap.1 hsecond
    obtain ⟨draft, hdraft, rfl⟩ := hbodies rule hrule first hbody
    obtain ⟨draft', hdraft', rfl⟩ := hbodies other hother second hsecondBody
    rw [Draft.eq_of_handle_eq hdrafts hdraft hdraft' hhandle]
  refine ⟨heq, ?_⟩
  intro rule hrule
  obtain ⟨draft, -, hlink⟩ := exists_of_forall₂_of_mem hlinks hrule
  have hnodup : rule.bodies.Nodup := List.Nodup.of_map _ (Draft.bodies_of_link hlink).2.2
  refine hnodup.map_on ?_
  intro first hfirst second hsecond hhandle
  exact heq first (List.mem_flatMap_of_mem hrule hfirst) second
    (List.mem_flatMap_of_mem hrule hsecond) hhandle

/-- Every fallback of a rule of a text is the body of a rule of the text. -/
theorem body_mem_of_parse {catalog : Catalog} {firstHandle : Nat} {lines : List (List Char)}
    {rules : List Rule} (h : parse catalog firstHandle lines = .ok rules) {rule : Rule}
    (hrule : rule ∈ rules) {body : RuleBody} (hbody : body ∈ rule.bodies) :
    ∃ other ∈ rules, other.toRuleBody = body := by
  obtain ⟨blocks, drafts, -, hlinks⟩ := drafts_of_parse h
  obtain ⟨draft, hdraft, rfl⟩ := exists_draft_of_body hlinks hrule hbody
  obtain ⟨other, hother, hlink⟩ := exists_of_forall₂_of_mem hlinks.flip hdraft
  exact ⟨other, hother, (Draft.bodies_of_link hlink).1⟩

end Rule

end TickEconomy
