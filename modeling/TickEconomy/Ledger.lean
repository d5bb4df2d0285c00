import TickEconomy.Resource

/-!
# Ledgers of pools

What there is of each resource is kept in pools. A pool belongs to an owner, the world or an agent,
and holds a quantity of one resource up to a capacity. A ledger lists the pools of all owners, each
owner's in the order in which they were set up; an owner has at most one pool of a resource, and
setting up a pool again keeps its place (`Ledger.setUp`).

Three operations change a quantity. `Ledger.deposit` adds to it and `Ledger.assign` replaces it;
both bring the result into the range from zero to the capacity (`fitting`) and return what did not
fit, which is negative where the result would have been. `Ledger.withdraw` takes all of an amount or
nothing, returns what it refused, and leaves the range alone. On a resource without a pool all three
change nothing and return the whole amount. `Ledger.restock` gives back what was withdrawn, whatever
the capacity has become. All of them are adjustments of one quantity (`Ledger.adjust`), which keep
the owners, resources and capacities of all pools and their order.

The host of a simulation may name no resource at all, which counts as one without a pool; only to
set up a pool is refused then (`Transaction`, `Ledger.perform`).

A ledger is looked at pool by pool (`Ledger.pool?`). A change to the owner's pool of a resource
shows in that pool and in no other (`Ledger.pool?_change`), and so does an adjustment of its
quantity (`Ledger.pool?_adjust`).
-/

set_option autoImplicit false
set_option relaxedAutoImplicit false

namespace TickEconomy

/-- Who holds pools. -/
inductive Owner
  | world
  | agent (name : String)
  deriving DecidableEq, Repr

/-- A quantity of one resource that belongs to one owner. -/
structure Pool where
  /-- Whose the pool is. -/
  owner : Owner
  /-- What the pool holds. -/
  resource : Resource
  /-- How much of it the pool holds. -/
  quantity : Int
  /-- How much of it the pool may hold. -/
  capacity : Int
  deriving DecidableEq, Repr

/-- The quantity nearest to the given one in the range from zero to the capacity. A negative
capacity is kept to as well. -/
def fitting (capacity quantity : Int) : Int :=
  if capacity < quantity then capacity else if quantity < 0 then 0 else quantity

namespace Pool

/-- The pool is the owner's pool of the resource. -/
def isOf (pool : Pool) (owner : Owner) (resource : Resource) : Bool :=
  pool.resource.isSame resource && pool.owner == owner

/-- The quantity in a pool, or zero where there is none. -/
def quantityIn : Option Pool → Int
  | none => 0
  | some pool => pool.quantity

/-- The capacity of a pool, or zero where there is none. -/
def capacityOf : Option Pool → Int
  | none => 0
  | some pool => pool.capacity

end Pool

/-- The pools of all owners. -/
structure Ledger where
  /-- The pools, each owner's in the order in which they were set up. -/
  pools : List Pool := []
  deriving DecidableEq, Repr

namespace Ledger

/-! ### Looking at pools -/

/-- The owner's pool of the resource. -/
def pool? (ledger : Ledger) (owner : Owner) (resource : Resource) : Option Pool :=
  ledger.pools.find? fun pool ↦ pool.isOf owner resource

/-- The quantity that the owner holds of the resource, which is zero without a pool. -/
def quantity (ledger : Ledger) (owner : Owner) (resource : Resource) : Int :=
  Pool.quantityIn (ledger.pool? owner resource)

/-- The capacity of the owner's pool of the resource, which is zero without a pool. -/
def capacity (ledger : Ledger) (owner : Owner) (resource : Resource) : Int :=
  Pool.capacityOf (ledger.pool? owner resource)

/-- The pools of one owner. -/
def poolsOf (ledger : Ledger) (owner : Owner) : List Pool :=
  ledger.pools.filter fun pool ↦ pool.owner = owner

/-! ### Setting up pools -/

/-- The ledger with a change made to the owner's pool of the resource, if there is one. -/
def change (ledger : Ledger) (owner : Owner) (resource : Resource) (made : Pool → Pool) :
    Ledger :=
  { pools := ledger.pools.map fun pool ↦ if pool.isOf owner resource then made pool else pool }

/-- The ledger with the given pool in the place of the owner's pool of the resource, or at the end
if there is none. -/
def setUp (ledger : Ledger) (pool : Pool) : Ledger :=
  match ledger.pool? pool.owner pool.resource with
  | some _ => ledger.change pool.owner pool.resource fun _ ↦ pool
  | none => { pools := ledger.pools ++ [pool] }

/-- The ledger with another capacity of the owner's pool of the resource. The quantity stays as it
is, even above the capacity; a pool that is not there is set up empty. -/
def limit (ledger : Ledger) (owner : Owner) (resource : Resource) (capacity : Int) : Ledger :=
  match ledger.pool? owner resource with
  | some _ => ledger.change owner resource fun pool ↦ { pool with capacity := capacity }
  | none =>
    { pools := ledger.pools ++
        [{ owner := owner, resource := resource, quantity := 0, capacity := capacity }] }

/-! ### Changing quantities -/

/-- The ledger with another quantity in the owner's pool of the resource, if there is one. The
quantity may depend on the pool. -/
def adjust (ledger : Ledger) (owner : Owner) (resource : Resource) (quantity : Pool → Int) :
    Ledger :=
  ledger.change owner resource fun pool ↦ { pool with quantity := quantity pool }

/-- The ledger with the amount added to the owner's pool as far as it fits, and what did not fit. -/
def deposit (ledger : Ledger) (owner : Owner) (resource : Resource) (amount : Int) :
    Ledger × Int :=
  match ledger.pool? owner resource with
  | none => (ledger, amount)
  | some pool =>
    (ledger.adjust owner resource fun pool ↦ fitting pool.capacity (pool.quantity + amount),
      pool.quantity + amount - fitting pool.capacity (pool.quantity + amount))

/-- The ledger with the amount in the owner's pool as far as it fits, and what did not fit. -/
def assign (ledger : Ledger) (owner : Owner) (resource : Resource) (amount : Int) :
    Ledger × Int :=
  match ledger.pool? owner resource with
  | none => (ledger, amount)
  | some pool =>
    (ledger.adjust owner resource fun pool ↦ fitting pool.capacity amount,
      amount - fitting pool.capacity amount)

/-- The ledger with the amount taken from the owner's pool if it holds that much, and what was
refused: nothing or the whole amount. -/
def withdraw (ledger : Ledger) (owner : Owner) (resource : Resource) (amount : Int) :
    Ledger × Int :=
  match ledger.pool? owner resource with
  | none => (ledger, amount)
  | some pool =>
    if pool.quantity < amount then (ledger, amount)
    else (ledger.adjust owner resource fun pool ↦ pool.quantity - amount, 0)

/-- The ledger with the amount given back to the owner's pool, if there is one, whatever its
capacity. -/
def restock (ledger : Ledger) (owner : Owner) (resource : Resource) (amount : Int) : Ledger :=
  ledger.adjust owner resource fun pool ↦ pool.quantity + amount

end Ledger

/-! ### Transactions of a host -/

/-- What a host may do to the pools of an owner. The resource may be missing, save where a
capacity is set. -/
inductive Transaction
  | setUp (resource : Option Resource) (capacity quantity : Int)
  | limit (resource : Resource) (capacity : Int)
  | deposit (resource : Option Resource) (amount : Int)
  | assign (resource : Option Resource) (amount : Int)
  | withdraw (resource : Option Resource) (amount : Int)
  deriving DecidableEq, Repr

/-- Why a transaction is refused. -/
inductive Transaction.Refusal
  /-- A pool cannot be set up for no resource. -/
  | resourceMissing
  deriving DecidableEq, Repr

/-- The sentence shown to the host. -/
def Transaction.Refusal.message : Transaction.Refusal → String
  | .resourceMissing => "nil resource supplied"

namespace Ledger

/-- The owner's pool of a resource, if a resource is named and has one. -/
def poolOf? (ledger : Ledger) (owner : Owner) : Option Resource → Option Pool
  | none => none
  | some resource => ledger.pool? owner resource

/-- The ledger after a transaction on the pools of the owner, and the amount that did not fit or
was refused. -/
def perform (ledger : Ledger) (owner : Owner) :
    Transaction → Except Transaction.Refusal (Ledger × Int)
  | .setUp none _ _ => .error .resourceMissing
  | .setUp (some resource) capacity quantity =>
    .ok (ledger.setUp
      { owner := owner, resource := resource, quantity := quantity, capacity := capacity }, 0)
  | .limit resource capacity => .ok (ledger.limit owner resource capacity, 0)
  | .deposit none amount => .ok (ledger, amount)
  | .deposit (some resource) amount => .ok (ledger.deposit owner resource amount)
  | .assign none amount => .ok (ledger, amount)
  | .assign (some resource) amount => .ok (ledger.assign owner resource amount)
  | .withdraw none amount => .ok (ledger, amount)
  | .withdraw (some resource) amount => .ok (ledger.withdraw owner resource amount)

end Ledger

/-! ### What changes show in -/

/-- The pool is the owner's pool of the resource when it belongs to the owner and its resource has
the same handle. -/
theorem Pool.isOf_iff (pool : Pool) (owner : Owner) (resource : Resource) :
    pool.isOf owner resource = true ↔
      pool.resource.handle = resource.handle ∧ pool.owner = owner := by
  simp [Pool.isOf, Resource.isSame]

/-- The owner's pool of a resource is also its pool of every resource with the same handle. -/
theorem Pool.isOf_congr {pool : Pool} {owner other : Owner} {resource wanted : Resource}
    (h : pool.isOf owner resource = true) :
    pool.isOf other wanted = (resource.isSame wanted && owner == other) := by
  obtain ⟨hhandle, howner⟩ := (Pool.isOf_iff pool owner resource).1 h
  simp [Pool.isOf, Resource.isSame, hhandle, howner]

namespace Ledger

theorem isOf_of_pool? {ledger : Ledger} {owner : Owner} {resource : Resource} {pool : Pool}
    (h : ledger.pool? owner resource = some pool) : pool.isOf owner resource = true := by
  unfold pool? at h
  have hfound := List.find?_some h
  exact hfound

/-- A change shows in the pools that it concerns, if it keeps their owner and resource. -/
theorem pool?_change (ledger : Ledger) (owner other : Owner) (resource wanted : Resource)
    (made : Pool → Pool)
    (hmade : ∀ pool : Pool, pool.isOf owner resource = true →
      (made pool).isOf other wanted = pool.isOf other wanted) :
    (ledger.change owner resource made).pool? other wanted =
      (ledger.pool? other wanted).map fun pool ↦
        if pool.isOf owner resource then made pool else pool := by
  have hfind : ((fun pool : Pool ↦ pool.isOf other wanted) ∘ fun pool : Pool ↦
      if pool.isOf owner resource then made pool else pool) =
        fun pool : Pool ↦ pool.isOf other wanted := by
    funext pool
    simp only [Function.comp_apply]
    split
    · next h => exact hmade pool h
    · rfl
  simp only [change, pool?, List.find?_map, hfind]

/-- An adjustment shows in the quantity of its own pool and in nothing else. -/
theorem pool?_adjust (ledger : Ledger) (owner other : Owner) (resource wanted : Resource)
    (quantity : Pool → Int) :
    (ledger.adjust owner resource quantity).pool? other wanted =
      (ledger.pool? other wanted).map fun pool ↦
        if pool.isOf owner resource then { pool with quantity := quantity pool } else pool :=
  pool?_change ledger owner other resource wanted _ fun _ _ ↦ rfl

/-- A ledger without the pool has nothing to adjust. -/
theorem adjust_of_pool?_eq_none {ledger : Ledger} {owner : Owner} {resource : Resource}
    (quantity : Pool → Int) (h : ledger.pool? owner resource = none) :
    ledger.adjust owner resource quantity = ledger := by
  obtain ⟨pools⟩ := ledger
  have habsent : ∀ pool ∈ pools, ¬ pool.isOf owner resource = true := List.find?_eq_none.1 h
  have hmap : ∀ pool ∈ pools,
      (if pool.isOf owner resource = true then { pool with quantity := quantity pool } else pool) =
        pool := fun pool hpool ↦ if_neg (habsent pool hpool)
  simp only [adjust, change]
  rw [List.map_congr_left hmap, List.map_id']

end Ledger

end TickEconomy
