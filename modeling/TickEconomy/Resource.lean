import TickEconomy.Text.Lowercase

/-!
# Resources and catalogs

Resources, rules and agents are known by names. The blanks around a name do not belong to it
(`Name.trim`). Where a name is looked up without regard to case, two names agree when their
lower-case forms are equal (`Name.fold`).

A resource is something that can be held and moved in whole units, such as grain or iron ore. Its
handle tells it from every other resource; its key, its singular and its plural name are for texts
and reports. The key and the singular name are also what it is looked up by, without regard to
case (`Resource.foldedNames`).

A catalog lists the resources that texts may speak of, each once, in the order in which they were
added. A resource is found by its singular name or its key, without regard to case and to blanks
around the name (`Catalog.find?`). So that no name stands for two resources, a resource is refused
when a name of it belongs to another one in the catalog (`Catalog.add`).
-/

set_option autoImplicit false
set_option relaxedAutoImplicit false

namespace TickEconomy

/-! ### Names -/

namespace Name

/-- The name without the blanks around it. -/
def trim (name : String) : String :=
  String.ofList (Text.strip name.toList)

/-- The lower-case form of the name. -/
def fold (name : String) : String :=
  String.ofList (Text.lowercase name.toList)

end Name

/-! ### Resources -/

/-- Something that can be held and moved in whole units. -/
structure Resource where
  /-- What tells the resource from every other one. -/
  handle : Nat
  /-- The name that the resource is filed and reported under. -/
  key : String
  /-- The name of one unit. -/
  singular : String
  /-- The name of several units. -/
  plural : String
  deriving DecidableEq, Repr

namespace Resource

/-- The name that a resource takes where one may be given: the given one without the blanks around
it, or the key when none is given or it is empty. -/
def givenName (key : String) : Option String → String
  | none => key
  | some name => if name = "" then key else Name.trim name

/-- A resource under a name, with its singular and plural names where they differ from it. -/
def named (handle : Nat) (name : String) (singular plural : Option String) : Resource :=
  let key := Name.trim name
  { handle := handle
    key := key
    singular := givenName key singular
    plural := givenName key plural }

/-- The two resources are one and the same. -/
def isSame (first second : Resource) : Bool :=
  first.handle == second.handle

/-- The lower-case forms of the names that the resource is looked up by. -/
def foldedNames (resource : Resource) : List String :=
  [Name.fold resource.singular, Name.fold resource.key]

end Resource

/-! ### Catalogs -/

/-- Resources in the order in which they were added. -/
structure Catalog where
  /-- The resources, the earliest first. -/
  resources : List Resource := []
  deriving DecidableEq, Repr

/-- Why a resource is refused: one of its names, in lower case, belongs to another resource. -/
structure NameClash where
  /-- The name in lower case. -/
  name : String
  /-- The key of the resource that has the name. -/
  holder : String
  /-- The key of the resource that is refused. -/
  newcomer : String
  deriving DecidableEq, Repr

namespace Catalog

/-! ### Looking up in a catalog -/

/-- The resource whose singular name has this lower-case form. -/
def bySingular? (catalog : Catalog) (folded : String) : Option Resource :=
  catalog.resources.find? fun resource ↦ Name.fold resource.singular = folded

/-- The resource whose key has this lower-case form. -/
def byKey? (catalog : Catalog) (folded : String) : Option Resource :=
  catalog.resources.find? fun resource ↦ Name.fold resource.key = folded

/-- The resource that has the name, given in lower case. -/
def byFoldedName? (catalog : Catalog) (folded : String) : Option Resource :=
  (catalog.bySingular? folded).or (catalog.byKey? folded)

/-- The resource that has the name. -/
def find? (catalog : Catalog) (name : String) : Option Resource :=
  catalog.byFoldedName? (Name.fold (Name.trim name))

/-- The resource with the handle. -/
def byHandle? (catalog : Catalog) (handle : Nat) : Option Resource :=
  catalog.resources.find? fun resource ↦ resource.handle = handle

/-! ### Adding to a catalog -/

/-- The first of the names, given in lower case, that belongs to a resource other than the one to be
added. -/
def clash? (catalog : Catalog) (resource : Resource) : List String → Option NameClash
  | [] => none
  | name :: later =>
    match catalog.byFoldedName? name with
    | none => catalog.clash? resource later
    | some holder =>
      if holder.isSame resource then catalog.clash? resource later
      else some { name := name, holder := holder.key, newcomer := resource.key }

/-- The catalog with the resource in it, or why the resource is refused. -/
def add (catalog : Catalog) (resource : Resource) : Except NameClash Catalog :=
  match catalog.clash? resource resource.foldedNames with
  | some clash => .error clash
  | none =>
    match catalog.byHandle? resource.handle with
    | some _ => .ok catalog
    | none => .ok { resources := catalog.resources ++ [resource] }

/-- The catalog of the resources, added in turn. -/
def ofList (resources : List Resource) : Except NameClash Catalog :=
  resources.foldlM add {}

end Catalog

end TickEconomy
