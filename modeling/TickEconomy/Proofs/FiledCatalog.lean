import TickEconomy.Proofs.CatalogNames
import TickEconomy.Table

/-!
# Catalogs with tables

A catalog is a list that is searched anew for every name. A `FiledCatalog` has in addition a table
for singular names, one for keys and one for handles, which are written to as resources are added
(`FiledCatalog.add`). The tables are in step with a catalog when each gives what a search of the
catalog gives (`FiledCatalog.Files`). An addition comes to the same for both and keeps them in step
(`FiledCatalog.Files.add_cases`, `FiledCatalog.Files.add`): the resource is in the catalog already
and nothing changes, another one has a name of it and it is refused, or it goes behind all others.

`FiledCatalog.kept_ofOffers` says what holds of list and tables after any resources were offered to
them, and what becomes of the next one.
-/

set_option autoImplicit false
set_option relaxedAutoImplicit false

namespace TickEconomy

/-- A catalog together with tables of what it holds. -/
structure FiledCatalog where
  /-- The resources, the earliest first. -/
  resources : List Resource := []
  /-- The resources by their singular names in lower case. -/
  bySingular : Table String Resource := {}
  /-- The resources by their keys in lower case. -/
  byKey : Table String Resource := {}
  /-- The resources by their handles. -/
  byHandle : Table Nat Resource := {}

namespace FiledCatalog

/-- The resource that the tables have under the name, given in lower case. -/
def byFoldedName? (filed : FiledCatalog) (folded : String) : Option Resource :=
  (filed.bySingular.get? folded).or (filed.byKey.get? folded)

/-- The resource that the tables have under the name. -/
def find? (filed : FiledCatalog) (name : String) : Option Resource :=
  filed.byFoldedName? (Name.fold (Name.trim name))

/-- The first of the names, given in lower case, that the tables have for a resource other than the
one to be added. -/
def clash? (filed : FiledCatalog) (resource : Resource) : List String → Option NameClash
  | [] => none
  | name :: later =>
    match filed.byFoldedName? name with
    | none => filed.clash? resource later
    | some holder =>
      if holder.isSame resource then filed.clash? resource later
      else some { name := name, holder := holder.key, newcomer := resource.key }

/-- The catalog with the resource behind all others and in every table. -/
def file (filed : FiledCatalog) (resource : Resource) : FiledCatalog where
  resources := filed.resources ++ [resource]
  bySingular := filed.bySingular.put (Name.fold resource.singular) resource
  byKey := filed.byKey.put (Name.fold resource.key) resource
  byHandle := filed.byHandle.put resource.handle resource

/-- What an addition leaves behind, and the resource or why it is refused. -/
def add (filed : FiledCatalog) (resource : Resource) :
    FiledCatalog × Except NameClash Resource :=
  match filed.clash? resource resource.foldedNames with
  | some clash => (filed, .error clash)
  | none =>
    match filed.byHandle.get? resource.handle with
    | some _ => (filed, .ok resource)
    | none => (filed.file resource, .ok resource)

/-- What additions of the resources in turn leave behind of an empty catalog. -/
def ofOffers (offered : List Resource) : FiledCatalog :=
  offered.foldl (fun filed resource ↦ (filed.add resource).1) {}

/-- The list is that of the catalog, and every table gives what a search of the catalog gives. -/
structure Files (filed : FiledCatalog) (catalog : Catalog) : Prop where
  resources : filed.resources = catalog.resources
  bySingular : ∀ folded, filed.bySingular.get? folded = catalog.bySingular? folded
  byKey : ∀ folded, filed.byKey.get? folded = catalog.byKey? folded
  byHandle : ∀ handle, filed.byHandle.get? handle = catalog.byHandle? handle

/-- A table that gives what a search gives does so after a resource with a new entry is put behind
all others and into the table. -/
theorem get?_put_eq_find?_append {Entry : Type} [DecidableEq Entry] {table : Table Entry Resource}
    {resources : List Resource} {entryOf : Resource → Entry} {resource : Resource}
    (htable : ∀ entry, table.get? entry = resources.find? fun other ↦ entryOf other = entry)
    (hnew : ∀ other ∈ resources, entryOf other ≠ entryOf resource) (entry : Entry) :
    (table.put (entryOf resource) resource).get? entry =
      (resources ++ [resource]).find? fun other ↦ entryOf other = entry := by
  rw [Table.get?_put, List.find?_append, htable]
  split_ifs with hentry
  · subst hentry
    have hnone : resources.find? (fun other ↦ entryOf other = entryOf resource) = none :=
      List.find?_eq_none.2 fun other hother hsame ↦ hnew other hother (of_decide_eq_true hsame)
    rw [hnone]
    simp
  · simp [hentry]

namespace Files

variable {filed : FiledCatalog} {catalog : Catalog} {resource : Resource}

theorem byFoldedName?_eq (h : filed.Files catalog) (folded : String) :
    filed.byFoldedName? folded = catalog.byFoldedName? folded := by
  rw [byFoldedName?, h.bySingular, h.byKey, Catalog.byFoldedName?]

theorem clash?_eq (h : filed.Files catalog) (resource : Resource) (names : List String) :
    filed.clash? resource names = catalog.clash? resource names := by
  induction names with
  | nil => rfl
  | cons name later ih =>
    cases hholder : catalog.byFoldedName? name <;>
      simp [clash?, Catalog.clash?, h.byFoldedName?_eq, hholder, ih]

/-- The tables are kept when a resource is filed that has no handle and no name of another. -/
theorem file (h : filed.Files catalog)
    (hhandle : ∀ other ∈ catalog.resources, other.handle ≠ resource.handle)
    (hnames : ∀ other ∈ catalog.resources, ¬ other.SharesName resource) :
    (filed.file resource).Files { resources := catalog.resources ++ [resource] } where
  resources := congrArg (· ++ [resource]) h.resources
  bySingular := get?_put_eq_find?_append h.bySingular fun other hmem hsame ↦ hnames other hmem
    ⟨_, other.singular_mem_foldedNames, hsame ▸ resource.singular_mem_foldedNames⟩
  byKey := get?_put_eq_find?_append h.byKey fun other hmem hsame ↦ hnames other hmem
    ⟨_, other.key_mem_foldedNames, hsame ▸ resource.key_mem_foldedNames⟩
  byHandle := get?_put_eq_find?_append h.byHandle hhandle

/-- An addition to the tables comes to the same as one to the catalog. Unless the resource is new,
the list and the tables stay as they are. -/
theorem add_cases (h : filed.Files catalog) (hunambiguous : catalog.Unambiguous)
    (hhandle : catalog.TellsApart resource) :
    (resource ∈ catalog.resources ∧ ¬ catalog.Holds resource ∧
        catalog.add resource = .ok catalog ∧ filed.add resource = (filed, .ok resource)) ∨
      (resource ∉ catalog.resources ∧ catalog.Holds resource ∧
        ∃ clash, catalog.add resource = .error clash ∧
          filed.add resource = (filed, .error clash)) ∨
      (resource ∉ catalog.resources ∧ ¬ catalog.Holds resource ∧
        catalog.add resource = .ok { resources := catalog.resources ++ [resource] } ∧
        filed.add resource = (filed.file resource, .ok resource)) := by
  rw [FiledCatalog.add, Catalog.add, h.clash?_eq, h.byHandle]
  obtain ⟨hmem, hfree, hclash, hfound⟩ | ⟨hnew, hheld, clash, hclash⟩ |
    ⟨hnew, hfree, hclash, hfound⟩ := hunambiguous.lookup_cases hhandle
  · rw [hclash, hfound]
    exact Or.inl ⟨hmem, hfree, rfl, rfl⟩
  · rw [hclash]
    exact Or.inr (Or.inl ⟨hnew, hheld, clash, rfl, rfl⟩)
  · rw [hclash, hfound]
    exact Or.inr (Or.inr ⟨hnew, hfree, rfl, rfl⟩)

/-- An addition keeps the tables in step with the catalog. -/
theorem add (h : filed.Files catalog) (hunambiguous : catalog.Unambiguous)
    (hhandle : catalog.TellsApart resource) :
    (filed.add resource).1.Files (catalog.offer resource) := by
  rw [Catalog.offer]
  obtain ⟨-, -, hcatalog, hfiled⟩ | ⟨-, -, clash, hcatalog, hfiled⟩ |
    ⟨hnew, hfree, hcatalog, hfiled⟩ := h.add_cases hunambiguous hhandle
  · rwa [hcatalog, hfiled]
  · rwa [hcatalog, hfiled]
  · rw [hcatalog, hfiled]
    refine h.file (fun other hmem hsame ↦ ?_) fun other hmem hshares ↦ ?_
    · exact hnew (hhandle other hmem hsame ▸ hmem)
    · exact hfree ⟨other, hmem, fun hsame ↦ hnew (hsame ▸ hmem), hshares⟩

end Files

/-- After offers of resources with handles of their own the tables are in step with the catalog. -/
theorem files_ofOffers {known : Set Resource} (hknown : known.InjOn Resource.handle)
    {offered : List Resource} (hoffered : ∀ resource ∈ offered, resource ∈ known) :
    (ofOffers offered).Files (Catalog.ofOffers offered) := by
  induction offered using List.reverseRecOn with
  | nil => exact ⟨rfl, fun _ ↦ rfl, fun _ ↦ rfl, fun _ ↦ rfl⟩
  | append_singleton earlier resource ih =>
    obtain ⟨hearlier, hresource⟩ := List.forall_mem_append.1 hoffered
    have hafter := Catalog.after_ofOffers hknown hearlier
    rw [ofOffers, List.foldl_concat, Catalog.ofOffers, List.foldl_concat]
    exact (ih hearlier).add hafter.unambiguous
      (hafter.tellsApart hknown hearlier (List.forall_mem_singleton.1 hresource))

/-- What is true of a catalog and its tables after the resources were offered to them in turn, and
of an addition of any of the known resources to them. -/
structure Kept (filed : FiledCatalog) (catalog : Catalog) (offered : List Resource)
    (known : Set Resource) : Prop where
  /-- List and tables are in step. -/
  files : filed.Files catalog
  /-- No name of a resource is a name of another one. -/
  names : ∀ first ∈ catalog.resources, ∀ second ∈ catalog.resources, first ≠ second →
    ∀ folded ∈ first.foldedNames, folded ∉ second.foldedNames
  /-- A name finds the resource that has it, and nothing if none has it. -/
  find : ∀ name resource, catalog.find? name = some resource ↔
    resource ∈ catalog.resources ∧ Name.fold (Name.trim name) ∈ resource.foldedNames
  /-- The tables find what the catalog finds. -/
  find_filed : ∀ name, filed.find? name = catalog.find? name
  /-- It is the same to look into the table for keys before the one for singular names. -/
  either_first : ∀ folded,
    (filed.byKey.get? folded).or (filed.bySingular.get? folded) = filed.byFoldedName? folded
  /-- A handle gives the resource that has it. -/
  handle : ∀ handle resource, filed.byHandle.get? handle = some resource ↔
    resource ∈ catalog.resources ∧ resource.handle = handle
  /-- The resources are in the order in which they were first offered. -/
  order : catalog.resources.Sublist offered.eraseDups
  /-- A resource of the catalog is added without any change. -/
  present : ∀ resource ∈ known, resource ∈ catalog.resources →
    catalog.add resource = .ok catalog ∧ filed.add resource = (filed, .ok resource)
  /-- A resource is refused when it is not in the catalog and another one has a name of it. -/
  refused : ∀ resource ∈ known, (∃ clash, catalog.add resource = .error clash) ↔
    resource ∉ catalog.resources ∧ catalog.Holds resource
  /-- A resource that is refused leaves the list and the tables as they are. -/
  unchanged : ∀ resource ∈ known, ∀ clash, catalog.add resource = .error clash →
    filed.add resource = (filed, .error clash)
  /-- Any other resource goes behind all others. -/
  added : ∀ resource ∈ known, resource ∉ catalog.resources → ¬ catalog.Holds resource →
    catalog.add resource = .ok { resources := catalog.resources ++ [resource] } ∧
      filed.add resource = (filed.file resource, .ok resource)
  /-- The list of the resources makes this catalog when none of them is refused, and no other. -/
  built : ∀ built, Catalog.ofList offered = .ok built ↔
    built = catalog ∧ ∀ resource ∈ offered, resource ∈ catalog.resources

/-- However often resources with handles of their own were offered to a catalog, in whatever order
and under whatever names, each name in it stands for one resource, its tables are in step with its
list, and a resource is refused, without any change, just when a name of it is taken. -/
theorem kept_ofOffers {known : Set Resource} (hknown : known.InjOn Resource.handle)
    {offered : List Resource} (hoffered : ∀ resource ∈ offered, resource ∈ known) :
    (ofOffers offered).Kept (Catalog.ofOffers offered) offered known := by
  have hafter := Catalog.after_ofOffers hknown hoffered
  have hunambiguous := hafter.unambiguous
  have hfiles := files_ofOffers hknown hoffered
  have hcases {resource : Resource} (hresource : resource ∈ known) :=
    hfiles.add_cases hunambiguous (hafter.tellsApart hknown hoffered hresource)
  constructor
  case files => exact hfiles
  case names =>
    intro first hfirst second hsecond hne folded hfirstName hsecondName
    exact hne (hunambiguous.names first hfirst second hsecond ⟨folded, hfirstName, hsecondName⟩)
  case find => exact fun name resource ↦ hunambiguous.find?_eq_some_iff
  case find_filed => exact fun name ↦ hfiles.byFoldedName?_eq _
  case either_first =>
    intro folded
    rw [hfiles.byFoldedName?_eq, hfiles.byKey, hfiles.bySingular,
      hunambiguous.byKey?_or_bySingular?]
  case handle =>
    intro handle resource
    rw [hfiles.byHandle, hunambiguous.byHandle?_eq_some_iff]
  case order => exact hafter.order
  case present =>
    intro resource hresource hmem
    obtain ⟨-, -, hadd⟩ | ⟨hnew, -⟩ | ⟨hnew, -⟩ := hcases hresource
    · exact hadd
    · exact absurd hmem hnew
    · exact absurd hmem hnew
  case refused =>
    intro resource hresource
    obtain ⟨hmem, -, hadd, -⟩ | ⟨hnew, hheld, clash, hadd, -⟩ | ⟨-, hfree, hadd, -⟩ :=
      hcases hresource
    · rw [hadd]
      exact ⟨nofun, fun h ↦ absurd hmem h.1⟩
    · exact iff_of_true ⟨clash, hadd⟩ ⟨hnew, hheld⟩
    · rw [hadd]
      exact ⟨nofun, fun h ↦ absurd h.2 hfree⟩
  case unchanged =>
    intro resource hresource clash hclash
    obtain ⟨-, -, hadd, -⟩ | ⟨-, -, found, hadd, hfiled⟩ | ⟨-, -, hadd, -⟩ := hcases hresource
    · cases hadd.symm.trans hclash
    · cases hadd.symm.trans hclash
      exact hfiled
    · cases hadd.symm.trans hclash
  case added =>
    intro resource hresource hnew hfree
    obtain ⟨hmem, -⟩ | ⟨-, hheld, -⟩ | ⟨-, -, hadd⟩ := hcases hresource
    · exact absurd hmem hnew
    · exact absurd hheld hfree
    · exact hadd
  case built =>
    intro built
    rw [Catalog.ofList_eq_ok_iff hknown hoffered]
    exact and_congr_right fun hbuilt ↦ by rw [hbuilt]

/-- The meal is refused because the key of the flour is its singular name in other letters, also
when it is offered again, and the flour is not entered twice. -/
theorem kept_ofOffers_meal :
    let flour : Resource :=
      { handle := 1, key := "Flour", singular := "bag of flour", plural := "Flour" }
    let grain : Resource := { handle := 2, key := "grain", singular := "Grain", plural := "grain" }
    let meal : Resource := { handle := 3, key := "meal", singular := "fLOUR", plural := "meal" }
    let offered := [flour, meal, grain, flour, meal]
    let known : Set Resource := { resource | resource ∈ offered }
    known.InjOn Resource.handle ∧ (∀ resource ∈ offered, resource ∈ known) ∧
      (ofOffers offered).resources = [flour, grain] ∧
      (ofOffers offered).find? " FLOUR " = some flour ∧
      ((ofOffers offered).add meal).2 =
        .error { name := "flour", holder := "Flour", newcomer := "meal" } ∧
      (ofOffers offered).Kept (Catalog.ofOffers offered) offered known := by
  intro flour grain meal offered known
  have hknown : known.InjOn Resource.handle := by
    have hhandles : ∀ first ∈ offered, ∀ second ∈ offered, first.handle = second.handle →
        first = second := by decide
    exact fun first hfirst second hsecond ↦ hhandles first hfirst second hsecond
  exact ⟨hknown, fun resource hresource ↦ hresource, by decide +kernel, by decide +kernel,
    by decide +kernel, kept_ofOffers hknown fun resource hresource ↦ hresource⟩

end FiledCatalog

end TickEconomy
