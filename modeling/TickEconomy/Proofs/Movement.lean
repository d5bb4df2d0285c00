import TickEconomy.Ledger
import TickEconomy.Proofs.Sequence
import TickEconomy.Round

/-!
# What movements do to quantities

A deposit, an assignment and a withdrawal each come down to one adjustment, also where there is no
pool (`Ledger.deposit_fst`, `Ledger.assign_fst`, `Ledger.withdraw_of_le`), so the movements of a
round can be told as a sequence of adjustments (`Ledger.moveEach`). A withdrawal that is refused
changes nothing (`Ledger.withdraw_of_lt`). It is reported as refused only if the amount was
positive: a negative amount asked of a pool that is even further below zero is neither withdrawn nor
reported. Restocking undoes taking, whatever the pool holds and wherever its capacity is
(`Ledger.restock_take`).

The movements that specifiers mean in a context are those whose owners the context gives to their
relations (`Context.Resolves`).
-/

set_option autoImplicit false
set_option relaxedAutoImplicit false

namespace TickEconomy

namespace Ledger

/-! ### Adjustments -/

/-- Two adjustments of one pool make one. -/
theorem adjust_adjust (ledger : Ledger) (owner : Owner) (resource : Resource)
    (first second : Pool → Int) :
    (ledger.adjust owner resource first).adjust owner resource second =
      ledger.adjust owner resource fun pool ↦ second { pool with quantity := first pool } := by
  simp only [adjust, change, List.map_map]
  refine congrArg Ledger.mk (List.map_congr_left fun pool _ ↦ ?_)
  have hsame : ({ pool with quantity := first pool } : Pool).isOf owner resource =
      pool.isOf owner resource := rfl
  by_cases h : pool.isOf owner resource = true
  · simp [h, hsame]
  · simp [h]

/-- An adjustment to the quantity that a pool has changes nothing. -/
theorem adjust_quantity (ledger : Ledger) (owner : Owner) (resource : Resource) :
    ledger.adjust owner resource Pool.quantity = ledger := by
  obtain ⟨pools⟩ := ledger
  have hmap : ∀ pool ∈ pools,
      (if pool.isOf owner resource = true then { pool with quantity := pool.quantity } else pool) =
        pool := fun pool _ ↦ ite_self pool
  simp only [adjust, change]
  rw [List.map_congr_left hmap, List.map_id']

/-! ### Deposits, assignments and withdrawals as adjustments -/

/-- A deposit brings the sum into the range of the pool. -/
theorem deposit_fst (ledger : Ledger) (owner : Owner) (resource : Resource) (amount : Int) :
    (ledger.deposit owner resource amount).1 =
      ledger.adjust owner resource fun pool ↦ fitting pool.capacity (pool.quantity + amount) := by
  unfold deposit
  split
  · next habsent => exact (adjust_of_pool?_eq_none _ habsent).symm
  · rfl

/-- An assignment brings the amount into the range of the pool. -/
theorem assign_fst (ledger : Ledger) (owner : Owner) (resource : Resource) (amount : Int) :
    (ledger.assign owner resource amount).1 =
      ledger.adjust owner resource fun pool ↦ fitting pool.capacity amount := by
  unfold assign
  split
  · next habsent => exact (adjust_of_pool?_eq_none _ habsent).symm
  · rfl

/-- The ledger with the amount taken from the owner's pool, if there is one, whatever it holds. -/
def take (ledger : Ledger) (owner : Owner) (resource : Resource) (amount : Int) : Ledger :=
  ledger.adjust owner resource fun pool ↦ pool.quantity - amount

/-- A pool that holds as much gives the whole amount, and nothing positive is refused. -/
theorem withdraw_of_le {ledger : Ledger} {owner : Owner} {resource : Resource} {amount : Int}
    (h : amount ≤ ledger.quantity owner resource) :
    (ledger.withdraw owner resource amount).1 = ledger.take owner resource amount ∧
      (ledger.withdraw owner resource amount).2 ≤ 0 := by
  unfold quantity at h
  unfold withdraw
  split
  · next habsent =>
    rw [habsent] at h
    exact ⟨(adjust_of_pool?_eq_none _ habsent).symm, h⟩
  · next pool hpool =>
    rw [hpool] at h
    change amount ≤ pool.quantity at h
    rw [if_neg (Int.not_lt.mpr h)]
    exact ⟨rfl, Int.le_refl 0⟩

/-- A pool that does not hold as much refuses the whole amount. -/
theorem withdraw_of_lt {ledger : Ledger} {owner : Owner} {resource : Resource} {amount : Int}
    (h : ledger.quantity owner resource < amount) :
    ledger.withdraw owner resource amount = (ledger, amount) := by
  unfold quantity at h
  unfold withdraw
  split
  · rfl
  · next pool hpool =>
    rw [hpool] at h
    exact if_pos h

/-- What was taken can be put back, whatever the pool holds. -/
theorem restock_take (ledger : Ledger) (owner : Owner) (resource : Resource) (amount : Int) :
    (ledger.take owner resource amount).restock owner resource amount = ledger := by
  rw [take, restock, adjust_adjust]
  simp only [Int.sub_add_cancel]
  exact adjust_quantity ledger owner resource

/-! ### Looking at adjusted pools -/

/-- A pool that is found for one owner and resource, and is that of another owner and resource, is
found for them as well. -/
theorem pool?_eq_of_isOf {ledger : Ledger} {owner other : Owner} {resource wanted : Resource}
    {pool : Pool} (hfound : ledger.pool? other wanted = some pool)
    (h : pool.isOf owner resource = true) : ledger.pool? owner resource = some pool := by
  obtain ⟨hhandle, howner⟩ := (Pool.isOf_iff _ _ _).1 h
  obtain ⟨hwanted, hother⟩ := (Pool.isOf_iff _ _ _).1 (isOf_of_pool? hfound)
  have hsame : (fun present : Pool ↦ present.isOf owner resource) =
      fun present : Pool ↦ present.isOf other wanted := by
    funext present
    simp only [Pool.isOf, Resource.isSame, ← hhandle, ← hwanted, ← howner, ← hother]
  rw [pool?, hsame]
  exact hfound

/-- Taking from a pool shows in that pool alone, which then holds what is left of it. -/
theorem quantity_take (ledger : Ledger) (owner other : Owner) (resource wanted : Resource)
    (amount : Int) :
    (ledger.take owner resource amount).quantity other wanted =
        ledger.quantity owner resource - amount ∨
      (ledger.take owner resource amount).quantity other wanted = ledger.quantity other wanted := by
  rw [take, quantity, pool?_adjust]
  cases hfound : ledger.pool? other wanted with
  | none => exact Or.inr (by rw [quantity, hfound]; rfl)
  | some pool =>
    by_cases h : pool.isOf owner resource = true
    · refine Or.inl ?_
      rw [quantity, pool?_eq_of_isOf hfound h]
      simp [Pool.quantityIn, h]
    · refine Or.inr ?_
      rw [quantity, hfound]
      simp [h]

/-! ### Sequences of movements -/

/-- The ledger after movements that bring each pool concerned to a new quantity, in order. The
quantity may depend on the amount that is moved and on the pool; where there is no pool a movement
does nothing. -/
def moveEach (ledger : Ledger) (movements : List Movement) (quantity : Int → Pool → Int) :
    Ledger :=
  movements.foldl (fun reached movement ↦
    reached.adjust movement.owner movement.specifier.resource
      (quantity movement.specifier.quantity)) ledger

theorem foldl_depositMovement (ledger : Ledger) (movements : List Movement) :
    movements.foldl depositMovement ledger =
      ledger.moveEach movements fun amount pool ↦
        fitting pool.capacity (pool.quantity + amount) := by
  simp only [moveEach, ← deposit_fst]
  rfl

theorem foldl_assignMovement (ledger : Ledger) (movements : List Movement) :
    movements.foldl assignMovement ledger =
      ledger.moveEach movements fun amount pool ↦ fitting pool.capacity amount := by
  simp only [moveEach, ← assign_fst]
  rfl

end Ledger

/-! ### Resolving relations -/

/-- The owner of a relation is the one that the context gives to it. -/
theorem Context.owner_eq_ok_iff (context : Context) (rule : String) (role : Role)
    (relation : String) (owner : Owner) :
    context.owner rule role relation = .ok owner ↔ context.get? relation = some owner := by
  unfold Context.owner
  cases context.get? relation <;> simp

/-- The movements are those that the specifiers mean in the context, in the same order. -/
def Context.Resolves (context : Context) (specifiers : List Specifier)
    (movements : List Movement) : Prop :=
  List.Forall₂ (fun specifier movement ↦
    context.get? specifier.relation = some movement.owner ∧ movement.specifier = specifier)
    specifiers movements

/-- The movements of a rule are those that its specifiers mean. -/
theorem RuleBody.resolves_of_movements {rule : RuleBody} {context : Context} {role : Role}
    {specifiers : List Specifier} {movements : List Movement}
    (h : rule.movements context role specifiers = .ok movements) :
    context.Resolves specifiers movements := by
  refine (forall₂_of_mapM_eq_ok h).imp ?_
  intro specifier movement hmovement
  obtain ⟨owner, howner, heq⟩ := bind_eq_ok_iff.1 hmovement
  simp only [pure, Except.pure, Except.ok.injEq] at heq
  subst heq
  exact ⟨(Context.owner_eq_ok_iff _ _ _ _ _).1 howner, rfl⟩

end TickEconomy
