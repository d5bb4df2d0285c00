import Mathlib.Data.List.Induction
import Mathlib.Data.Set.Function
import TickEconomy.Proofs.Sequence
import TickEconomy.Resource

/-!
# No name stands for two resources

A catalog is unambiguous when its resources have handles of their own and none of them has a name of
another one, singular names and keys taken together and without regard to case
(`Catalog.Unambiguous`). In such a catalog a name finds the one resource that has it, whichever kind
of names is gone through first (`Catalog.Unambiguous.find?_eq_some_iff`,
`Catalog.Unambiguous.byKey?_or_bySingular?`).

Resources are offered to a catalog in turn, and each is taken or refused (`Catalog.offer`). One that
is in the catalog already makes no difference, one that another resource has a name of is refused,
and any other goes behind all others (`Catalog.Unambiguous.offer_cases`). So whatever is offered,
the catalog stays unambiguous and in the order of the first offers (`Catalog.after_ofOffers`), and a
list of resources makes a catalog when none of them is refused (`Catalog.ofList_eq_ok_iff`).
-/

set_option autoImplicit false
set_option relaxedAutoImplicit false

namespace TickEconomy

/-- Elements that are related are equal also with one more element, if what is related to it equals
it. -/
theorem eq_of_related_append {Item : Type} {related : Item → Item → Prop} {items : List Item}
    {item : Item} (hsymm : ∀ {first second}, related first second → related second first)
    (h : ∀ first ∈ items, ∀ second ∈ items, related first second → first = second)
    (hitem : ∀ other ∈ items, related other item → other = item) :
    ∀ first ∈ items ++ [item], ∀ second ∈ items ++ [item],
      related first second → first = second := by
  intro first hfirst second hsecond hrelated
  rw [List.mem_append, List.mem_singleton] at hfirst hsecond
  rcases hfirst with hfirst | rfl <;> rcases hsecond with hsecond | rfl
  · exact h first hfirst second hsecond hrelated
  · exact hitem first hfirst hrelated
  · exact (hitem second hsecond (hsymm hrelated)).symm
  · rfl

/-- A lower-case name of the one resource is a lower-case name of the other. -/
def Resource.SharesName (first second : Resource) : Prop :=
  ∃ folded ∈ first.foldedNames, folded ∈ second.foldedNames

theorem Resource.SharesName.symm {first second : Resource} (h : first.SharesName second) :
    second.SharesName first := by
  obtain ⟨folded, hfirst, hsecond⟩ := h
  exact ⟨folded, hsecond, hfirst⟩

theorem Resource.singular_mem_foldedNames (resource : Resource) :
    Name.fold resource.singular ∈ resource.foldedNames :=
  List.mem_cons_self

theorem Resource.key_mem_foldedNames (resource : Resource) :
    Name.fold resource.key ∈ resource.foldedNames :=
  List.mem_cons_of_mem _ List.mem_cons_self

theorem Resource.mem_foldedNames_iff {resource : Resource} {folded : String} :
    folded ∈ resource.foldedNames ↔
      Name.fold resource.singular = folded ∨ Name.fold resource.key = folded := by
  simp [foldedNames, eq_comm]

namespace Catalog

/-- Another resource of the catalog has a name of the resource. -/
def Holds (catalog : Catalog) (resource : Resource) : Prop :=
  ∃ holder ∈ catalog.resources, holder ≠ resource ∧ holder.SharesName resource

theorem Holds.mono {catalog other : Catalog} {resource : Resource} (h : catalog.Holds resource)
    (hsubset : catalog.resources ⊆ other.resources) : other.Holds resource := by
  obtain ⟨holder, hholder, hother⟩ := h
  exact ⟨holder, hsubset hholder, hother⟩

/-- No other resource of the catalog has the handle of the resource. -/
def TellsApart (catalog : Catalog) (resource : Resource) : Prop :=
  ∀ other ∈ catalog.resources, other.handle = resource.handle → other = resource

/-- Resources of the catalog that have a handle or a name in common are the same. -/
structure Unambiguous (catalog : Catalog) : Prop where
  handles : ∀ first ∈ catalog.resources, ∀ second ∈ catalog.resources,
    first.handle = second.handle → first = second
  names : ∀ first ∈ catalog.resources, ∀ second ∈ catalog.resources,
    first.SharesName second → first = second

namespace Unambiguous

variable {catalog : Catalog} {resource : Resource} {folded : String}

/-! ### Looking up -/

theorem bySingular?_eq_some_iff (h : catalog.Unambiguous) :
    catalog.bySingular? folded = some resource ↔
      resource ∈ catalog.resources ∧ Name.fold resource.singular = folded := by
  refine (find?_eq_some_iff_of_unique ?_).trans (by rw [decide_eq_true_eq])
  intro first hfirst hfirstName second hsecond hsecondName
  have hsame := (of_decide_eq_true hfirstName).trans (of_decide_eq_true hsecondName).symm
  exact h.names first hfirst second hsecond
    ⟨_, first.singular_mem_foldedNames, hsame ▸ second.singular_mem_foldedNames⟩

theorem byKey?_eq_some_iff (h : catalog.Unambiguous) :
    catalog.byKey? folded = some resource ↔
      resource ∈ catalog.resources ∧ Name.fold resource.key = folded := by
  refine (find?_eq_some_iff_of_unique ?_).trans (by rw [decide_eq_true_eq])
  intro first hfirst hfirstName second hsecond hsecondName
  have hsame := (of_decide_eq_true hfirstName).trans (of_decide_eq_true hsecondName).symm
  exact h.names first hfirst second hsecond
    ⟨_, first.key_mem_foldedNames, hsame ▸ second.key_mem_foldedNames⟩

/-- A handle finds the resource that has it. -/
theorem byHandle?_eq_some_iff (h : catalog.Unambiguous) {handle : Nat} :
    catalog.byHandle? handle = some resource ↔
      resource ∈ catalog.resources ∧ resource.handle = handle := by
  refine (find?_eq_some_iff_of_unique ?_).trans (by rw [decide_eq_true_eq])
  intro first hfirst hfirstHandle second hsecond hsecondHandle
  exact h.handles first hfirst second hsecond
    ((of_decide_eq_true hfirstHandle).trans (of_decide_eq_true hsecondHandle).symm)

/-- What is found among singular names and what is found among keys is the same resource. -/
theorem eq_of_bySingular?_of_byKey? (h : catalog.Unambiguous) {first second : Resource}
    (hfirst : catalog.bySingular? folded = some first)
    (hsecond : catalog.byKey? folded = some second) : first = second := by
  obtain ⟨hfirstMem, rfl⟩ := h.bySingular?_eq_some_iff.1 hfirst
  obtain ⟨hsecondMem, hsame⟩ := h.byKey?_eq_some_iff.1 hsecond
  exact h.names first hfirstMem second hsecondMem
    ⟨_, first.singular_mem_foldedNames, hsame ▸ second.key_mem_foldedNames⟩

/-- Keys may as well be gone through before singular names. -/
theorem byKey?_or_bySingular? (h : catalog.Unambiguous) (folded : String) :
    (catalog.byKey? folded).or (catalog.bySingular? folded) = catalog.byFoldedName? folded := by
  rw [byFoldedName?]
  cases hsingular : catalog.bySingular? folded with
  | none => rw [Option.or_none, Option.none_or]
  | some first =>
    cases hkey : catalog.byKey? folded with
    | none => rfl
    | some second =>
      rw [h.eq_of_bySingular?_of_byKey? hsingular hkey]

/-- A lower-case name finds the resource that has it. -/
theorem byFoldedName?_eq_some_iff (h : catalog.Unambiguous) :
    catalog.byFoldedName? folded = some resource ↔
      resource ∈ catalog.resources ∧ folded ∈ resource.foldedNames := by
  constructor
  · intro hfind
    rcases Option.or_eq_some_iff.1 hfind with hsingular | ⟨-, hkey⟩
    · obtain ⟨hmem, rfl⟩ := h.bySingular?_eq_some_iff.1 hsingular
      exact ⟨hmem, resource.singular_mem_foldedNames⟩
    · obtain ⟨hmem, rfl⟩ := h.byKey?_eq_some_iff.1 hkey
      exact ⟨hmem, resource.key_mem_foldedNames⟩
  · rintro ⟨hmem, hname⟩
    rcases Resource.mem_foldedNames_iff.1 hname with rfl | rfl
    · exact Option.or_eq_some_iff.2 (Or.inl (h.bySingular?_eq_some_iff.2 ⟨hmem, rfl⟩))
    · rw [← h.byKey?_or_bySingular?]
      exact Option.or_eq_some_iff.2 (Or.inl (h.byKey?_eq_some_iff.2 ⟨hmem, rfl⟩))

/-- A name finds the resource that has it. -/
theorem find?_eq_some_iff (h : catalog.Unambiguous) {name : String} :
    catalog.find? name = some resource ↔
      resource ∈ catalog.resources ∧ Name.fold (Name.trim name) ∈ resource.foldedNames :=
  h.byFoldedName?_eq_some_iff

end Unambiguous

/-! ### Adding -/

variable {catalog : Catalog} {resource : Resource}

/-- No clash is found when every name is free or belongs to the resource itself. -/
theorem clash?_eq_none_iff {names : List String} :
    catalog.clash? resource names = none ↔
      ∀ name ∈ names, ∀ holder, catalog.byFoldedName? name = some holder →
        holder.handle = resource.handle := by
  induction names with
  | nil => exact iff_of_true rfl (List.forall_mem_nil _)
  | cons name later ih =>
    rw [List.forall_mem_cons, ← ih, clash?]
    cases hholder : catalog.byFoldedName? name with
    | none => simp
    | some holder =>
      by_cases hsame : holder.handle = resource.handle <;> simp [Resource.isSame, hsame]

/-- A clash is found when another resource has a name of the resource. -/
theorem Unambiguous.clash?_eq_none_iff_not_holds (h : catalog.Unambiguous)
    (hhandle : catalog.TellsApart resource) :
    catalog.clash? resource resource.foldedNames = none ↔ ¬ catalog.Holds resource := by
  rw [clash?_eq_none_iff]
  constructor
  · rintro hfree ⟨holder, hholder, hne, folded, hname, hown⟩
    exact hne (hhandle holder hholder
      (hfree folded hown holder (h.byFoldedName?_eq_some_iff.2 ⟨hholder, hname⟩)))
  · intro hfree folded hown holder hfind
    obtain ⟨hholder, hname⟩ := h.byFoldedName?_eq_some_iff.1 hfind
    by_contra hne
    exact hfree ⟨holder, hholder, fun hsame ↦ hne (congrArg Resource.handle hsame),
      folded, hname, hown⟩

/-- In an unambiguous catalog no other resource has a name of a resource of the catalog. -/
theorem Unambiguous.not_holds_of_mem (h : catalog.Unambiguous)
    (hmem : resource ∈ catalog.resources) : ¬ catalog.Holds resource :=
  fun ⟨holder, hholder, hne, hshares⟩ ↦ hne (h.names holder hholder resource hmem hshares)

/-- What the names and the handle of a resource to be added show: that it is in the catalog, that
another resource has a name of it, or that it is new. -/
theorem Unambiguous.lookup_cases (h : catalog.Unambiguous)
    (hhandle : catalog.TellsApart resource) :
    (resource ∈ catalog.resources ∧ ¬ catalog.Holds resource ∧
        catalog.clash? resource resource.foldedNames = none ∧
        catalog.byHandle? resource.handle = some resource) ∨
      (resource ∉ catalog.resources ∧ catalog.Holds resource ∧
        ∃ clash, catalog.clash? resource resource.foldedNames = some clash) ∨
      (resource ∉ catalog.resources ∧ ¬ catalog.Holds resource ∧
        catalog.clash? resource resource.foldedNames = none ∧
        catalog.byHandle? resource.handle = none) := by
  have hclash := h.clash?_eq_none_iff_not_holds hhandle
  by_cases hmem : resource ∈ catalog.resources
  · have hfree := h.not_holds_of_mem hmem
    exact Or.inl ⟨hmem, hfree, hclash.2 hfree, h.byHandle?_eq_some_iff.2 ⟨hmem, rfl⟩⟩
  · right
    by_cases hheld : catalog.Holds resource
    · exact Or.inl ⟨hmem, hheld, Option.ne_none_iff_exists'.1 fun hnone ↦ hclash.1 hnone hheld⟩
    · refine Or.inr ⟨hmem, hheld, hclash.2 hheld, List.find?_eq_none.2 fun other hother hsame ↦ ?_⟩
      exact hmem (hhandle other hother (of_decide_eq_true hsame) ▸ hother)

/-- The catalog after the resource was offered to it, as it is if the resource is refused. -/
def offer (catalog : Catalog) (resource : Resource) : Catalog :=
  match catalog.add resource with
  | .ok extended => extended
  | .error _ => catalog

/-- The catalog after the resources were offered to an empty one in turn. -/
def ofOffers (offered : List Resource) : Catalog :=
  offered.foldl offer {}

/-- A resource that is offered makes no difference if it is in the catalog or another resource has a
name of it, and else it goes behind all others. -/
theorem Unambiguous.offer_cases (h : catalog.Unambiguous)
    (hhandle : catalog.TellsApart resource) :
    ((resource ∈ catalog.resources ∨ catalog.Holds resource) ∧ catalog.offer resource = catalog) ∨
      (resource ∉ catalog.resources ∧ ¬ catalog.Holds resource ∧
        catalog.offer resource = { resources := catalog.resources ++ [resource] }) := by
  rw [offer, add]
  obtain ⟨hmem, -, hclash, hfound⟩ | ⟨-, hheld, clash, hclash⟩ | ⟨hnew, hfree, hclash, hfound⟩ :=
    h.lookup_cases hhandle
  · exact Or.inl ⟨Or.inl hmem, by rw [hclash, hfound]⟩
  · exact Or.inl ⟨Or.inr hheld, by rw [hclash]⟩
  · exact Or.inr ⟨hnew, hfree, by rw [hclash, hfound]⟩

/-- What is in the catalog stays in it. -/
theorem Unambiguous.resources_subset_offer (h : catalog.Unambiguous)
    (hhandle : catalog.TellsApart resource) :
    catalog.resources ⊆ (catalog.offer resource).resources := by
  obtain ⟨-, hoffer⟩ | ⟨-, -, hoffer⟩ := h.offer_cases hhandle
  · rw [hoffer]
    exact List.Subset.refl _
  · rw [hoffer]
    exact List.subset_append_left _ _

/-- A catalog stays unambiguous when a resource is offered to it. -/
theorem unambiguous_offer (h : catalog.Unambiguous) (hhandle : catalog.TellsApart resource) :
    (catalog.offer resource).Unambiguous := by
  obtain ⟨-, hoffer⟩ | ⟨hnew, hfree, hoffer⟩ := h.offer_cases hhandle
  · rwa [hoffer]
  · rw [hoffer]
    exact ⟨eq_of_related_append Eq.symm h.handles hhandle,
      eq_of_related_append Resource.SharesName.symm h.names fun other hmem hshares ↦
        absurd ⟨other, hmem, fun hsame ↦ hnew (hsame ▸ hmem), hshares⟩ hfree⟩

/-- A resource is added when it is in the catalog afterwards. -/
theorem Unambiguous.add_eq_ok_iff (h : catalog.Unambiguous)
    (hhandle : catalog.TellsApart resource) (extended : Catalog) :
    catalog.add resource = .ok extended ↔
      extended = catalog.offer resource ∧ resource ∈ extended.resources := by
  rw [offer, add]
  obtain ⟨hmem, -, hclash, hfound⟩ | ⟨hnew, -, clash, hclash⟩ | ⟨-, -, hclash, hfound⟩ :=
    h.lookup_cases hhandle
  · rw [hclash, hfound]
    exact ⟨fun hok ↦ by cases hok; exact ⟨rfl, hmem⟩, fun hextended ↦ by rw [hextended.1]⟩
  · rw [hclash]
    refine ⟨nofun, ?_⟩
    rintro ⟨rfl, hmem⟩
    exact absurd hmem hnew
  · rw [hclash, hfound]
    exact ⟨fun hok ↦ by cases hok; exact ⟨rfl, by simp⟩, fun hextended ↦ by rw [hextended.1]⟩

/-- What the catalog is after the resources were offered to it: it is unambiguous, its resources are
in the order in which they were first offered, and one that is not in it was refused for a name that
another resource still has. -/
structure After (catalog : Catalog) (offered : List Resource) : Prop where
  unambiguous : catalog.Unambiguous
  order : catalog.resources.Sublist offered.eraseDups
  settled : ∀ resource ∈ offered, resource ∈ catalog.resources ∨ catalog.Holds resource

namespace After

variable {offered : List Resource}

theorem mem_of_mem (h : catalog.After offered) (hmem : resource ∈ catalog.resources) :
    resource ∈ offered :=
  List.mem_eraseDups.1 (h.order.subset hmem)

/-- One more resource is offered. -/
theorem offer (h : catalog.After offered)
    (hhandle : catalog.TellsApart resource) :
    (catalog.offer resource).After (offered ++ [resource]) := by
  have hunambiguous := unambiguous_offer h.unambiguous hhandle
  have hrest : offered.eraseDups.Sublist (offered ++ [resource]).eraseDups := by
    rw [List.eraseDups_append]
    exact List.sublist_append_left _ _
  obtain ⟨hsettled, hoffer⟩ | ⟨hnew, hfree, hoffer⟩ := h.unambiguous.offer_cases hhandle
  · rw [hoffer]
    exact ⟨h.unambiguous, h.order.trans hrest,
      List.forall_mem_append.2 ⟨h.settled, List.forall_mem_singleton.2 hsettled⟩⟩
  · rw [hoffer] at hunambiguous ⊢
    refine ⟨hunambiguous, ?_, ?_⟩
    · -- A resource that was offered before is in the catalog or refused again.
      have hfirst : resource ∉ offered := fun hmem ↦ (h.settled resource hmem).elim hnew hfree
      have hadded : (offered ++ [resource]).eraseDups = offered.eraseDups ++ [resource] := by
        simp [List.eraseDups_append, List.eraseDups_cons, List.removeAll, hfirst]
      rw [hadded]
      exact h.order.append (List.Sublist.refl _)
    · intro other hother
      rcases List.mem_append.1 hother with hbefore | hlast
      · rcases h.settled other hbefore with hmem | ⟨holder, hholder, hne, hshares⟩
        · exact Or.inl (List.mem_append_left _ hmem)
        · exact Or.inr ⟨holder, List.mem_append_left _ hholder, hne, hshares⟩
      · exact Or.inl (List.mem_append_right _ hlast)

end After

/-- Resources with handles of their own can be told apart from what was offered before. -/
theorem After.tellsApart {known : Set Resource} (hknown : known.InjOn Resource.handle)
    {offered : List Resource} (hoffered : ∀ resource ∈ offered, resource ∈ known)
    (h : catalog.After offered) (hresource : resource ∈ known) : catalog.TellsApart resource :=
  fun other hother hsame ↦ hknown (hoffered other (h.mem_of_mem hother)) hresource hsame

/-- After offers of resources with handles of their own. -/
theorem after_ofOffers {known : Set Resource} (hknown : known.InjOn Resource.handle)
    {offered : List Resource} (hoffered : ∀ resource ∈ offered, resource ∈ known) :
    (ofOffers offered).After offered := by
  induction offered using List.reverseRecOn with
  | nil =>
    exact ⟨⟨List.forall_mem_nil _, List.forall_mem_nil _⟩, List.nil_sublist _,
      List.forall_mem_nil _⟩
  | append_singleton earlier resource ih =>
    obtain ⟨hearlier, hresource⟩ := List.forall_mem_append.1 hoffered
    rw [ofOffers, List.foldl_append]
    exact (ih hearlier).offer
      ((ih hearlier).tellsApart hknown hearlier (List.forall_mem_singleton.1 hresource))

/-- A catalog is made of a list of resources when none of them is refused. -/
theorem ofList_eq_ok_iff {known : Set Resource} (hknown : known.InjOn Resource.handle)
    {offered : List Resource} (hoffered : ∀ resource ∈ offered, resource ∈ known)
    {built : Catalog} :
    ofList offered = .ok built ↔
      built = ofOffers offered ∧ ∀ resource ∈ offered, resource ∈ built.resources := by
  induction offered using List.reverseRecOn generalizing built with
  | nil =>
    rw [ofList, List.foldlM_nil]
    exact ⟨fun h ↦ ⟨(Except.ok.inj h).symm, List.forall_mem_nil _⟩,
      fun h ↦ congrArg Except.ok h.1.symm⟩
  | append_singleton earlier resource ih =>
    obtain ⟨hearlier, hresource⟩ := List.forall_mem_append.1 hoffered
    have hafter := after_ofOffers hknown hearlier
    have hhandle := hafter.tellsApart hknown hearlier (List.forall_mem_singleton.1 hresource)
    have hlast : ofOffers (earlier ++ [resource]) = (ofOffers earlier).offer resource :=
      List.foldl_concat ..
    have hadd := hafter.unambiguous.add_eq_ok_iff hhandle built
    have hsubset := hafter.unambiguous.resources_subset_offer hhandle
    rw [hlast, ofList, List.foldlM_append, bind_eq_ok_iff, List.forall_mem_append,
      List.forall_mem_singleton]
    simp only [List.foldlM_cons, List.foldlM_nil, bind_pure]
    constructor
    · rintro ⟨middle, hmiddle, hbuilt⟩
      obtain ⟨rfl, hall⟩ := (ih hearlier).1 hmiddle
      obtain ⟨rfl, hmem⟩ := hadd.1 hbuilt
      exact ⟨rfl, fun other hother ↦ hsubset (hall other hother), hmem⟩
    · rintro ⟨rfl, hall, hmem⟩
      refine ⟨_, (ih hearlier).2 ⟨rfl, fun other hother ↦ ?_⟩, hadd.2 ⟨rfl, hmem⟩⟩
      -- A resource that was refused would still be refused and not be in the last catalog.
      rcases hafter.settled other hother with hin | hheld
      · exact hin
      · exact absurd (Holds.mono hheld hsubset)
          ((unambiguous_offer hafter.unambiguous hhandle).not_holds_of_mem (hall other hother))

end Catalog

end TickEconomy
