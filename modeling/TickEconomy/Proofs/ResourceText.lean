import TickEconomy.Proofs.CatalogNames
import TickEconomy.Resource.Parse

/-!
# The resources of a text

The resources of a text are numbered in order, so every one of them is new when it is added to the
catalog of those before it (`Catalog.IsNumbered`). Adding them once more, in their order, to an
empty catalog therefore refuses none of them (`Resource.ofList_of_parse`), and in the catalog that
this gives no name stands for two resources (`Resource.unambiguous_of_parse`).
-/

set_option autoImplicit false
set_option relaxedAutoImplicit false

namespace TickEconomy

/-! ### Numbered catalogs -/

/-- The resource of a block has the handle that it is given. -/
theorem Resource.handle_of_ofBlock {handle : Nat} {block : Block} {resource : Resource}
    (h : ofBlock handle block = .ok resource) : resource.handle = handle := by
  unfold ofBlock at h
  split_ifs at h with hkind hname
  obtain ⟨wording, -, h⟩ := bind_eq_ok_iff.1 h
  cases h
  rfl

namespace Catalog

/-- A resource whose handle is new goes behind all others when it is added. -/
theorem resources_of_add_eq_ok {catalog extended : Catalog} {resource : Resource}
    (hnew : resource.handle ∉ catalog.resources.map Resource.handle)
    (h : catalog.add resource = .ok extended) :
    extended.resources = catalog.resources ++ [resource] := by
  have hhandle : catalog.byHandle? resource.handle = none :=
    List.find?_eq_none.2 fun other hother hsame ↦
      hnew (List.mem_map.2 ⟨other, hother, of_decide_eq_true hsame⟩)
  rw [add, hhandle] at h
  split at h
  · cases h
  · cases h
    rfl

/-- The resources of the catalog are numbered in order from the first handle on, and none of them is
refused when they are added to an empty catalog in this order. -/
structure IsNumbered (firstHandle : Nat) (catalog : Catalog) : Prop where
  handles : catalog.resources.map Resource.handle =
    List.range' firstHandle catalog.resources.length
  rebuilt : ofList catalog.resources = .ok catalog

/-- A catalog stays numbered when the resource of a block is added. -/
theorem IsNumbered.addBlock {firstHandle : Nat} {catalog extended : Catalog} {block : Block}
    (h : catalog.IsNumbered firstHandle)
    (hadd : Resource.addBlock firstHandle catalog block = .ok extended) :
    extended.IsNumbered firstHandle := by
  obtain ⟨resource, hresource, hadd⟩ := bind_eq_ok_iff.1 hadd
  have hhandle := Resource.handle_of_ofBlock hresource
  have hadded : catalog.add resource = .ok extended := by
    split at hadd
    · cases hadd
    · next hadded => rw [hadded, Except.ok.inj hadd]
  have hnew : resource.handle ∉ catalog.resources.map Resource.handle := by
    rw [h.handles, hhandle, List.mem_range'_1]
    omega
  have hresources := resources_of_add_eq_ok hnew hadded
  constructor
  · rw [hresources, List.map_append, h.handles, List.map_singleton, hhandle, List.length_append,
      List.length_singleton, List.range'_concat, Nat.one_mul]
  · rw [hresources, ofList, List.foldlM_append]
    exact bind_eq_ok_iff.2 ⟨catalog, h.rebuilt, by rw [List.foldlM_cons, hadded]; rfl⟩

/-- Blocks make a numbered catalog. -/
theorem isNumbered_of_foldlM {firstHandle : Nat} {blocks : List Block} {catalog : Catalog}
    (h : blocks.foldlM (Resource.addBlock firstHandle) {} = .ok catalog) :
    catalog.IsNumbered firstHandle :=
  of_foldlM_eq_ok (fun reached : Catalog ↦ reached.IsNumbered firstHandle)
    (fun _ _ _ _ hreached hadd ↦ hreached.addBlock hadd) ⟨rfl, rfl⟩ h

/-- In a numbered catalog no name stands for two resources. -/
theorem IsNumbered.unambiguous {firstHandle : Nat} {catalog : Catalog}
    (h : catalog.IsNumbered firstHandle) : catalog.Unambiguous := by
  have hdistinct : (catalog.resources.map Resource.handle).Nodup := by
    rw [h.handles]
    exact List.nodup_range'
  have hknown : Set.InjOn Resource.handle { resource | resource ∈ catalog.resources } :=
    fun first hfirst second hsecond hsame ↦
      List.inj_on_of_nodup_map hdistinct hfirst hsecond hsame
  rw [((ofList_eq_ok_iff hknown fun _ hresource ↦ hresource).1 h.rebuilt).1]
  exact (after_ofOffers hknown fun _ hresource ↦ hresource).unambiguous

end Catalog

/-! ### Texts -/

namespace Resource

variable {firstHandle : Nat} {lines : List (List Char)} {resources : List Resource}

/-- The resources of a text make a numbered catalog. -/
theorem isNumbered_of_parse (h : parse firstHandle lines = .ok resources) :
    Catalog.IsNumbered firstHandle { resources := resources } := by
  obtain ⟨catalog, hcatalog, h⟩ := bind_eq_ok_iff.1 h
  obtain ⟨-, rfl⟩ := Reading.finish_eq_ok_iff.1 h
  exact Catalog.isNumbered_of_foldlM hcatalog

/-- The resources of a text are a catalog of their own. -/
theorem ofList_of_parse (h : parse firstHandle lines = .ok resources) :
    Catalog.ofList resources = .ok { resources := resources } :=
  (isNumbered_of_parse h).rebuilt

/-- In the catalog of the resources of a text no name stands for two of them. -/
theorem unambiguous_of_parse (h : parse firstHandle lines = .ok resources) :
    Catalog.Unambiguous { resources := resources } :=
  (isNumbered_of_parse h).unambiguous

end Resource

end TickEconomy
