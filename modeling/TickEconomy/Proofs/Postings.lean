import Mathlib.Data.List.Induction
import TickEconomy.Proofs.Movement
import TickEconomy.Proofs.ScenarioText

/-!
# Postings to a ledger

A posting is a transaction that is entered for an owner. A ledger takes it or refuses it, and then
stays as it is (`Ledger.post`); what a posting does otherwise is nothing, a change to the one pool
that it is about, or a further pool behind all others (`Ledger.post_cases`). Whatever is posted to
an empty ledger, an owner therefore has at most one pool of a resource, in the order in which the
pools were first set up (`Ledger.handlesOf_postAll`).

What a posting returns accounts for what it did not move. A deposit or an assignment is settled in
its pool (`Pool.Settles`), a withdrawal is made or refused as a whole. The signs work out in either
case, also for negative amounts and for resources without a pool: a deposit changes the quantity by
its amount less what it returns, and a withdrawal by what it returns less its amount
(`Ledger.quantity_post`). Over a run of both the quantity changes by the sums of these
(`Ledger.quantity_postAll`). `Ledger.keptBooks_postAll` puts all this together.
-/

set_option autoImplicit false
set_option relaxedAutoImplicit false

namespace TickEconomy

/-! ### Postings -/

namespace Transaction

/-- The resource that the transaction is about, if it names one. -/
def resource? : Transaction → Option Resource
  | .setUp resource _ _ => resource
  | .limit resource _ => some resource
  | .deposit resource _ => resource
  | .assign resource _ => resource
  | .withdraw resource _ => resource

/-- The capacity that the transaction gives to a pool, if it gives one. -/
def capacity? : Transaction → Option Int
  | .setUp _ capacity _ => some capacity
  | .limit _ capacity => some capacity
  | _ => none

/-- The amount of a deposit, an assignment or a withdrawal. -/
def amount : Transaction → Int
  | .deposit _ amount => amount
  | .assign _ amount => amount
  | .withdraw _ amount => amount
  | _ => 0

/-- The transaction is a deposit. -/
def isDeposit : Transaction → Bool
  | .deposit _ _ => true
  | _ => false

/-- The transaction is a withdrawal. -/
def isWithdrawal : Transaction → Bool
  | .withdraw _ _ => true
  | _ => false

end Transaction

/-- A transaction that is entered for an owner. -/
structure Posting where
  /-- Whose pools are concerned. -/
  owner : Owner
  /-- What is to be done to them. -/
  transaction : Transaction
  deriving DecidableEq, Repr

namespace Posting

/-- The posting is about the owner's pool of the resource. -/
def isAbout (posting : Posting) (owner : Owner) (resource : Resource) : Bool :=
  posting.owner == owner && posting.transaction.resource?.any fun named ↦ resource.isSame named

/-- The handle of the resource that the posting gives the owner a pool of, unless the owner has one
already. -/
def opened? (owner : Owner) (posting : Posting) : Option Nat :=
  if posting.owner = owner ∧ posting.transaction.capacity?.isSome then
    posting.transaction.resource?.map Resource.handle
  else none

/-- A posting is about a pool when it is for the owner and names the resource. -/
theorem isAbout_iff {posting : Posting} {owner : Owner} {resource : Resource} :
    posting.isAbout owner resource = true ↔ posting.owner = owner ∧
      ∃ named, posting.transaction.resource? = some named ∧ named.handle = resource.handle := by
  simp only [isAbout, Bool.and_eq_true, beq_iff_eq, Option.any_eq_true, Resource.isSame,
    eq_comm (a := resource.handle)]

/-- A posting that names a resource is about a pool just when the pool is its owner's pool of the
resource. -/
theorem isAbout_eq_isOf {posting : Posting} {resource : Resource}
    (h : posting.transaction.resource? = some resource) (pool : Pool) :
    posting.isAbout pool.owner pool.resource = pool.isOf posting.owner resource := by
  rw [isAbout, h, Pool.isOf, Option.any_some, Bool.and_comm, BEq.comm]

end Posting

/-- A posting and what it returned. -/
structure Receipt where
  /-- What was posted. -/
  posting : Posting
  /-- The amount that did not fit or was refused. -/
  returned : Int
  deriving DecidableEq, Repr

namespace Receipt

/-- The amount that was to be deposited or withdrawn. -/
def amount (receipt : Receipt) : Int :=
  receipt.posting.transaction.amount

/-- How much more a pool holds after a deposit or a withdrawal, by its receipt. -/
def gain (receipt : Receipt) : Int :=
  match receipt.posting.transaction with
  | .deposit _ amount => amount - receipt.returned
  | .withdraw _ amount => receipt.returned - amount
  | _ => 0

/-- The sum of a value over the receipts. -/
def sum (value : Receipt → Int) : List Receipt → Int
  | [] => 0
  | receipt :: later => value receipt + sum value later

/-- The sum of a value over the receipts for transactions of one kind. -/
def total (receipts : List Receipt) (ofKind : Transaction → Bool) (value : Receipt → Int) : Int :=
  sum value (receipts.filter fun receipt ↦ ofKind receipt.posting.transaction)

/-- The quantity that a pool has at last, by the receipts of deposits and withdrawals. -/
def balance (initial : Int) (receipts : List Receipt) : Int :=
  initial + total receipts Transaction.isDeposit amount -
      total receipts Transaction.isWithdrawal amount -
    total receipts Transaction.isDeposit returned + total receipts Transaction.isWithdrawal returned

/-- What a pool gains in all is what is deposited in it and not returned, less what is withdrawn
and not refused. -/
theorem add_gain_eq_balance (initial : Int) (receipts : List Receipt) :
    initial + sum gain receipts = balance initial receipts := by
  induction receipts generalizing initial with
  | nil => simp [balance, total, sum]
  | cons receipt later ih =>
    have htail := ih (initial + receipt.gain)
    rw [sum, ← Int.add_assoc, htail]
    obtain ⟨⟨owner, transaction⟩, returned⟩ := receipt
    cases transaction <;>
      simp [balance, total, sum, gain, amount, Transaction.isDeposit, Transaction.isWithdrawal,
        Transaction.amount] <;> omega

end Receipt

namespace Ledger

/-- The ledger after the posting, which changes nothing if it is refused. -/
def post (ledger : Ledger) (posting : Posting) : Ledger :=
  match ledger.perform posting.owner posting.transaction with
  | .ok (after, _) => after
  | .error _ => ledger

/-- The amount that the posting returns, which is zero if it is refused. -/
def returned (ledger : Ledger) (posting : Posting) : Int :=
  match ledger.perform posting.owner posting.transaction with
  | .ok (_, amount) => amount
  | .error _ => 0

/-- The ledger after the postings in turn. -/
def postAll (ledger : Ledger) (postings : List Posting) : Ledger :=
  postings.foldl post ledger

/-- The postings in turn with what each of them returns. -/
def receipts (ledger : Ledger) : List Posting → List Receipt
  | [] => []
  | posting :: later =>
    { posting := posting, returned := ledger.returned posting } ::
      (ledger.post posting).receipts later

@[simp]
theorem postAll_nil (ledger : Ledger) : ledger.postAll [] = ledger :=
  rfl

@[simp]
theorem postAll_cons (ledger : Ledger) (posting : Posting) (later : List Posting) :
    ledger.postAll (posting :: later) = (ledger.post posting).postAll later :=
  rfl

@[simp]
theorem postAll_append (ledger : Ledger) (earlier later : List Posting) :
    ledger.postAll (earlier ++ later) = (ledger.postAll earlier).postAll later :=
  List.foldl_append

/-- The handles of the resources that the owner has pools of, in the order of the pools. -/
def handlesOf (ledger : Ledger) (owner : Owner) : List Nat :=
  (ledger.poolsOf owner).map fun pool ↦ pool.resource.handle

/-! ### What a posting does -/

section Perform

variable {ledger after : Ledger} {owner : Owner} {transaction : Transaction} {amount : Int}

theorem post_of_perform (h : ledger.perform owner transaction = .ok (after, amount)) :
    ledger.post ⟨owner, transaction⟩ = after := by
  rw [post, h]

theorem returned_of_perform (h : ledger.perform owner transaction = .ok (after, amount)) :
    ledger.returned ⟨owner, transaction⟩ = amount := by
  rw [returned, h]

end Perform

/-- A deposit, an assignment or a withdrawal of a resource without a pool changes nothing and
returns the whole amount. -/
theorem perform_of_absent {ledger : Ledger} {owner : Owner} {transaction : Transaction}
    (hmovement : transaction.capacity? = none)
    (habsent : ledger.poolOf? owner transaction.resource? = none) :
    ledger.perform owner transaction = .ok (ledger, transaction.amount) := by
  cases transaction with
  | setUp | limit => cases hmovement
  | deposit resource amount | assign resource amount | withdraw resource amount =>
    cases resource with
    | none => rfl
    | some resource =>
      have hnone : ledger.pool? owner resource = none := habsent
      simp [perform, deposit, assign, withdraw, hnone, Transaction.amount]

/-- A posting that gives no capacity to a pool leaves the ledger alone or adjusts the quantity of
the owner's pool of its resource. -/
theorem post_eq_self_or_adjust (ledger : Ledger) {posting : Posting}
    (h : posting.transaction.capacity? = none) :
    ledger.post posting = ledger ∨
      ∃ resource quantity, posting.transaction.resource? = some resource ∧
        ledger.pool? posting.owner resource ≠ none ∧
        ledger.post posting = ledger.adjust posting.owner resource quantity := by
  obtain ⟨owner, transaction⟩ := posting
  by_cases habsent : ledger.poolOf? owner transaction.resource? = none
  · exact Or.inl (post_of_perform (perform_of_absent h habsent))
  · obtain ⟨resource, hresource⟩ : ∃ resource, transaction.resource? = some resource :=
      Option.ne_none_iff_exists'.1 fun hnone ↦ habsent (by rw [hnone]; rfl)
    rw [hresource] at habsent
    cases transaction with
    | setUp | limit => cases h
    | deposit _ amount =>
      obtain rfl : _ = some resource := hresource
      exact Or.inr ⟨resource, _, rfl, habsent, deposit_fst ledger owner resource amount⟩
    | assign _ amount =>
      obtain rfl : _ = some resource := hresource
      exact Or.inr ⟨resource, _, rfl, habsent, assign_fst ledger owner resource amount⟩
    | withdraw _ amount =>
      obtain rfl : _ = some resource := hresource
      by_cases hcovered : amount ≤ ledger.quantity owner resource
      · exact Or.inr ⟨resource, _, rfl, habsent, (withdraw_of_le hcovered).1⟩
      · exact Or.inl (congrArg Prod.fst (withdraw_of_lt (Int.not_le.mp hcovered)))

/-- What a posting does: nothing, a change to the owner's pool of its resource, or a further pool of
that resource, which the owner had none of. -/
theorem post_cases (ledger : Ledger) (posting : Posting) :
    (ledger.post posting = ledger ∧ posting.opened? posting.owner = none) ∨
      (∃ resource made, posting.transaction.resource? = some resource ∧
        ledger.pool? posting.owner resource ≠ none ∧
        (∀ pool : Pool, pool.isOf posting.owner resource = true →
          (made pool).key = pool.key ∧
            ((made pool).capacity = pool.capacity ∨
              posting.transaction.capacity? = some (made pool).capacity)) ∧
        ledger.post posting = ledger.change posting.owner resource made) ∨
      ∃ resource pool, posting.transaction.resource? = some resource ∧
        ledger.pool? posting.owner resource = none ∧
        pool.isOf posting.owner resource = true ∧
        posting.transaction.capacity? = some pool.capacity ∧
        ledger.post posting = { pools := ledger.pools ++ [pool] } := by
  cases hcapacity : posting.transaction.capacity? with
  | none =>
    obtain hsame | ⟨resource, quantity, hresource, hpresent, hpost⟩ :=
      post_eq_self_or_adjust ledger hcapacity
    · exact Or.inl ⟨hsame, by simp [Posting.opened?, hcapacity]⟩
    · exact Or.inr (Or.inl ⟨resource, fun pool ↦ { pool with quantity := quantity pool }, hresource,
        hpresent, fun pool _ ↦ ⟨rfl, Or.inl rfl⟩, hpost⟩)
  | some given =>
    obtain ⟨owner, transaction⟩ := posting
    cases transaction with
    | deposit | assign | withdraw => cases hcapacity
    | setUp resource capacity quantity =>
      cases resource with
      | none => exact Or.inl ⟨rfl, by simp [Posting.opened?, Transaction.resource?]⟩
      | some resource =>
        right
        let pool : Pool := ⟨owner, resource, quantity, capacity⟩
        cases hfound : ledger.pool? owner resource with
        | none =>
          refine Or.inr ⟨resource, pool, rfl, hfound, (Pool.isOf_iff _ _ _).2 ⟨rfl, rfl⟩,
            hcapacity.symm, ?_⟩
          simp [post, perform, setUp, hfound, pool]
        | some found =>
          refine Or.inl ⟨resource, fun _ ↦ pool, rfl, by simp [hfound], fun present hisOf ↦
            ⟨((Pool.isOf_iff_key_eq _ _ _).1 hisOf).symm, Or.inr hcapacity.symm⟩, ?_⟩
          simp [post, perform, setUp, hfound, pool]
    | limit resource capacity =>
      right
      cases hfound : ledger.pool? owner resource with
      | none =>
        refine Or.inr ⟨resource, ⟨owner, resource, 0, capacity⟩, rfl, hfound,
          (Pool.isOf_iff _ _ _).2 ⟨rfl, rfl⟩, hcapacity.symm, ?_⟩
        simp [post, perform, limit, hfound]
      | some found =>
        refine Or.inl ⟨resource, fun pool ↦ { pool with capacity := capacity }, rfl,
          by simp [hfound], fun pool _ ↦ ⟨rfl, Or.inr hcapacity.symm⟩, ?_⟩
        simp [post, perform, limit, hfound]

/-! ### Pools that a posting is not about -/

/-- A change to the owner's pool of a resource leaves all other pools as they are, in order. -/
theorem filter_change (ledger : Ledger) {owner : Owner} {resource : Resource} {made : Pool → Pool}
    (hkey : ∀ pool : Pool, pool.isOf owner resource = true → (made pool).key = pool.key) :
    ((ledger.change owner resource made).pools.filter fun pool ↦ !pool.isOf owner resource) =
      ledger.pools.filter fun pool ↦ !pool.isOf owner resource := by
  have hkept : ∀ pool : Pool, pool.isOf owner resource = true →
      (made pool).isOf owner resource = true := fun pool hisOf ↦ by
    rw [Pool.isOf_iff_key_eq, hkey pool hisOf, ← Pool.isOf_iff_key_eq, hisOf]
  rw [change, List.filter_map]
  have hsame : ((fun pool : Pool ↦ !pool.isOf owner resource) ∘ fun pool : Pool ↦
      if pool.isOf owner resource then made pool else pool) =
        fun pool : Pool ↦ !pool.isOf owner resource := by
    funext pool
    by_cases hisOf : pool.isOf owner resource = true
    · simp [hisOf, hkept pool hisOf]
    · simp [hisOf]
  rw [hsame]
  refine (List.map_congr_left fun pool hpool ↦ ?_).trans (List.map_id' _)
  have hother : pool.isOf owner resource = false := by simpa using (List.mem_filter.1 hpool).2
  simp [hother]

/-- A posting leaves the pools that it is not about as they are, in their order. -/
theorem filter_post (ledger : Ledger) (posting : Posting) :
    ((ledger.post posting).pools.filter fun pool ↦ !posting.isAbout pool.owner pool.resource) =
      ledger.pools.filter fun pool ↦ !posting.isAbout pool.owner pool.resource := by
  obtain ⟨hpost, -⟩ | ⟨resource, made, hresource, -, hmade, hpost⟩ |
    ⟨resource, pool, hresource, -, hisOf, -, hpost⟩ := ledger.post_cases posting
  · rw [hpost]
  · simp only [Posting.isAbout_eq_isOf hresource]
    rw [hpost]
    exact ledger.filter_change fun pool hisOf ↦ (hmade pool hisOf).1
  · simp only [Posting.isAbout_eq_isOf hresource]
    rw [hpost, List.filter_append]
    simp [hisOf]

/-- A posting leaves a pool that it is not about as it is. -/
theorem pool?_post_of_not_isAbout {ledger : Ledger} {posting : Posting} {owner : Owner}
    {resource : Resource} (h : posting.isAbout owner resource = false) :
    (ledger.post posting).pool? owner resource = ledger.pool? owner resource := by
  have hsearch (reached : Ledger) : reached.pool? owner resource =
      (reached.pools.filter fun pool ↦ !posting.isAbout pool.owner pool.resource).find? fun pool ↦
        pool.isOf owner resource := by
    rw [pool?, List.find?_filter]
    congr 1
    funext pool
    by_cases hisOf : pool.isOf owner resource = true
    · obtain ⟨hhandle, rfl⟩ := (Pool.isOf_iff _ _ _).1 hisOf
      have hother : posting.isAbout pool.owner pool.resource = false := by
        rw [← h, Posting.isAbout, Posting.isAbout]
        simp only [Resource.isSame, hhandle]
      simp [hisOf, hother]
    · simp [hisOf]
  rw [hsearch, hsearch, filter_post]

/-! ### The order of pools -/

/-- An owner has no pool of a resource just when no pool of the owner has its handle. -/
theorem pool?_eq_none_iff (ledger : Ledger) (owner : Owner) (resource : Resource) :
    ledger.pool? owner resource = none ↔ resource.handle ∉ ledger.handlesOf owner := by
  rw [pool?, List.find?_eq_none, handlesOf, poolsOf, List.mem_map]
  constructor
  · rintro habsent ⟨pool, hpool, hhandle⟩
    obtain ⟨hmem, howner⟩ := List.mem_filter.1 hpool
    exact habsent pool hmem ((Pool.isOf_iff _ _ _).2 ⟨hhandle, of_decide_eq_true howner⟩)
  · intro habsent pool hmem hisOf
    obtain ⟨hhandle, howner⟩ := (Pool.isOf_iff _ _ _).1 hisOf
    exact habsent ⟨pool, List.mem_filter.2 ⟨hmem, decide_eq_true howner⟩, hhandle⟩

/-- The handles of an owner's pools are told by the keys of all pools. -/
theorem handlesOf_eq (ledger : Ledger) (owner : Owner) : ledger.handlesOf owner =
    ((ledger.pools.map Pool.key).filter fun key ↦ key.1 = owner).map Prod.snd := by
  rw [handlesOf, poolsOf, List.filter_map, List.map_map]
  rfl

/-- A posting that sets up a pool puts it behind all others of its owner, unless the owner has one
of that resource already. No other posting changes which pools there are, and none changes their
order. -/
theorem handlesOf_post (ledger : Ledger) (posting : Posting) (owner : Owner) :
    (ledger.post posting).handlesOf owner = ledger.handlesOf owner ++
      (posting.opened? owner).toList.removeAll (ledger.handlesOf owner) := by
  have helsewhere (h : posting.owner ≠ owner) : posting.opened? owner = none := by
    simp [Posting.opened?, h]
  obtain ⟨hpost, hopened⟩ | ⟨resource, made, hresource, hpresent, hmade, hpost⟩ |
    ⟨resource, pool, hresource, habsent, hisOf, hcapacity, hpost⟩ := ledger.post_cases posting
  · have hnone : posting.opened? owner = none := by
      by_cases howner : posting.owner = owner
      · exact howner ▸ hopened
      · exact helsewhere howner
    simp [hpost, hnone, List.removeAll]
  · rw [hpost, handlesOf_eq, map_key_change _ fun pool hisOf ↦ (hmade pool hisOf).1, ← handlesOf_eq]
    by_cases howner : posting.owner = owner
    · subst howner
      have hmem : resource.handle ∈ ledger.handlesOf posting.owner :=
        not_not.1 (mt (ledger.pool?_eq_none_iff _ _).2 hpresent)
      cases hgiven : posting.transaction.capacity? <;>
        simp [Posting.opened?, hgiven, hresource, List.removeAll, hmem]
    · simp [helsewhere howner, List.removeAll]
  · obtain ⟨hhandle, hown⟩ := (Pool.isOf_iff _ _ _).1 hisOf
    rw [hpost, handlesOf_eq, List.map_append, List.filter_append, List.map_append, ← handlesOf_eq]
    by_cases howner : posting.owner = owner
    · subst howner
      have hnew := (ledger.pool?_eq_none_iff _ _).1 habsent
      simp [Posting.opened?, hcapacity, hresource, List.removeAll, hnew, Pool.key, hhandle, hown]
    · simp [helsewhere howner, List.removeAll, Pool.key, hown, howner]

/-- A posting gives an owner no second pool of a resource. -/
theorem nodup_handlesOf_post {ledger : Ledger} {owner : Owner}
    (h : (ledger.handlesOf owner).Nodup) (posting : Posting) :
    ((ledger.post posting).handlesOf owner).Nodup := by
  rw [handlesOf_post]
  cases posting.opened? owner with
  | none => simpa [List.removeAll] using h
  | some handle =>
    by_cases hmem : handle ∈ ledger.handlesOf owner
    · simpa [List.removeAll, hmem] using h
    · simpa [List.removeAll, hmem, ← List.concat_eq_append] using h.concat hmem

/-- At most one more entry is kept behind the first occurrences of all others if it is new. -/
theorem eraseDups_append_toList (known : List Nat) (next : Option Nat) :
    (known ++ next.toList).eraseDups =
      known.eraseDups ++ next.toList.removeAll known.eraseDups := by
  rw [List.eraseDups_append]
  cases next with
  | none => rfl
  | some entry => by_cases hmem : entry ∈ known <;> simp [List.removeAll, hmem, List.eraseDups_cons]

/-- Whatever is posted to an empty ledger, an owner has one pool of each resource that a pool was
set up of, in the order in which this was first done. -/
theorem handlesOf_postAll (postings : List Posting) (owner : Owner) :
    (postAll {} postings).handlesOf owner =
      (postings.filterMap (Posting.opened? owner)).eraseDups := by
  induction postings using List.reverseRecOn with
  | nil => rfl
  | append_singleton earlier posting ih =>
    have hlast : [posting].filterMap (Posting.opened? owner) = (posting.opened? owner).toList := by
      cases hopened : posting.opened? owner <;> simp [hopened]
    rw [postAll_append, postAll_cons, postAll_nil, handlesOf_post, ih, List.filterMap_append, hlast,
      eraseDups_append_toList]

/-! ### What is kept -/

/-- Whatever is posted to an empty ledger, an owner has at most one pool of a resource. -/
theorem nodup_handlesOf_postAll (postings : List Posting) (owner : Owner) :
    ((postAll {} postings).handlesOf owner).Nodup := by
  induction postings using List.reverseRecOn with
  | nil => exact List.nodup_nil
  | append_singleton earlier posting ih =>
    rw [postAll_append]
    exact nodup_handlesOf_post ih posting

/-- A ledger stays well set up if the posting gives no negative capacity. -/
theorem WellSetUp.post {ledger : Ledger} (h : ledger.WellSetUp) {posting : Posting}
    (hcapacity : ∀ capacity ∈ posting.transaction.capacity?, 0 ≤ capacity) :
    (ledger.post posting).WellSetUp := by
  obtain ⟨hpost, -⟩ | ⟨resource, made, -, -, hmade, hpost⟩ |
    ⟨resource, pool, -, habsent, hisOf, hgiven, hpost⟩ := ledger.post_cases posting
  · rwa [hpost]
  · rw [hpost]
    refine h.change (fun pool hisOf ↦ (hmade pool hisOf).1) fun pool hpool hisOf ↦ ?_
    obtain hsame | hgiven := (hmade pool hisOf).2
    · rw [hsame]
      exact h.capacity_nonneg pool hpool
    · exact hcapacity _ hgiven
  · rw [hpost]
    obtain ⟨hhandle, hown⟩ := (Pool.isOf_iff _ _ _).1 hisOf
    refine h.concat ?_ (hcapacity _ hgiven)
    rw [pool?_eq_none_iff, hhandle, hown, ← pool?_eq_none_iff]
    exact habsent

/-- Whatever is posted to an empty ledger without negative capacities, the ledger is well set up. -/
theorem wellSetUp_postAll {postings : List Posting}
    (h : ∀ posting ∈ postings, ∀ capacity ∈ posting.transaction.capacity?, 0 ≤ capacity) :
    (postAll {} postings).WellSetUp := by
  induction postings using List.reverseRecOn with
  | nil => exact wellSetUp_empty
  | append_singleton earlier posting ih =>
    obtain ⟨hearlier, hlast⟩ := List.forall_mem_append.1 h
    rw [postAll_append]
    exact (ih hearlier).post (List.forall_mem_singleton.1 hlast)

end Ledger

/-! ### Movements of one pool -/

/-- A wanted quantity is settled in a pool: the pool comes to hold a quantity, and the rest of the
wanted one is returned. -/
structure Pool.Settles (pool : Pool) (wanted held returned : Int) : Prop where
  balance : held = wanted - returned
  nonneg : 0 ≤ held
  fits : held ≤ pool.capacity
  /-- What is held is the quantity in the range of the pool that is nearest to the wanted one. -/
  nearest : held = max 0 (min pool.capacity wanted)
  /-- Nothing is returned just when the wanted quantity is in the range of the pool. -/
  whole : returned = 0 ↔ 0 ≤ wanted ∧ wanted ≤ pool.capacity

/-- An amount is paid from a pool that holds as much, and refused as a whole by any other. -/
def Pool.Pays (pool : Pool) (amount held refused : Int) : Prop :=
  (amount ≤ pool.quantity ∧ refused = 0 ∧ held = pool.quantity - amount ∧ 0 ≤ held) ∨
    (pool.quantity < amount ∧ refused = amount ∧ held = pool.quantity)

theorem Pool.settles_fitting {pool : Pool} (hcapacity : 0 ≤ pool.capacity) (wanted : Int) :
    pool.Settles wanted (fitting pool.capacity wanted) (wanted - fitting pool.capacity wanted) := by
  unfold fitting
  split_ifs <;> constructor <;> omega

namespace Ledger

variable {ledger : Ledger} {owner : Owner} {resource : Resource} {pool : Pool}

/-- An adjusted pool has the new quantity. -/
theorem pool?_adjust_self (hfound : ledger.pool? owner resource = some pool)
    (quantity : Pool → Int) : (ledger.adjust owner resource quantity).pool? owner resource =
      some { pool with quantity := quantity pool } := by
  rw [pool?_adjust, hfound, Option.map_some, if_pos (isOf_of_pool? hfound)]

/-- A deposit in a pool settles the sum of what it holds and the amount. -/
theorem perform_deposit (hfound : ledger.pool? owner resource = some pool) (amount : Int) :
    ∃ after held returned, ledger.perform owner (.deposit (some resource) amount) =
        .ok (after, returned) ∧
      after.pool? owner resource = some { pool with quantity := held } ∧
      returned = pool.quantity + amount - held ∧
      held = fitting pool.capacity (pool.quantity + amount) :=
  ⟨ledger.adjust owner resource fun pool ↦ fitting pool.capacity (pool.quantity + amount), _, _,
    by simp [perform, deposit, hfound], pool?_adjust_self hfound _, rfl, rfl⟩

/-- An assignment to a pool settles the amount. -/
theorem perform_assign (hfound : ledger.pool? owner resource = some pool) (amount : Int) :
    ∃ after held returned, ledger.perform owner (.assign (some resource) amount) =
        .ok (after, returned) ∧
      after.pool? owner resource = some { pool with quantity := held } ∧
      returned = amount - held ∧ held = fitting pool.capacity amount :=
  ⟨ledger.adjust owner resource fun pool ↦ fitting pool.capacity amount, _, _,
    by simp [perform, assign, hfound], pool?_adjust_self hfound _, rfl, rfl⟩

/-- A withdrawal is paid from the pool or refused. -/
theorem perform_withdraw (hfound : ledger.pool? owner resource = some pool) (amount : Int) :
    ∃ after held refused, ledger.perform owner (.withdraw (some resource) amount) =
        .ok (after, refused) ∧
      after.pool? owner resource = some { pool with quantity := held } ∧
      pool.Pays amount held refused := by
  by_cases hshort : pool.quantity < amount
  · exact ⟨ledger, pool.quantity, amount, by simp [perform, withdraw, hfound, hshort], hfound,
      Or.inr ⟨hshort, rfl, rfl⟩⟩
  · refine ⟨ledger.adjust owner resource fun pool ↦ pool.quantity - amount, pool.quantity - amount,
      0, by simp [perform, withdraw, hfound, hshort], pool?_adjust_self hfound _, ?_⟩
    exact Or.inl ⟨by omega, rfl, rfl, by omega⟩

/-! ### Balances -/

/-- A pool is looked up by the handle of its resource. -/
theorem pool?_congr (ledger : Ledger) (owner : Owner) {first second : Resource}
    (h : first.handle = second.handle) : ledger.pool? owner first = ledger.pool? owner second := by
  simp only [pool?, Pool.isOf, Resource.isSame, h]

/-- A deposit adds its amount less what it returns, and a withdrawal takes its amount less what it
returns, also where there is no pool. -/
theorem quantity_post (ledger : Ledger) {posting : Posting} (owner : Owner) (resource : Resource)
    (habout : posting.isAbout owner resource = true)
    (hkind : posting.transaction.isDeposit ∨ posting.transaction.isWithdrawal) :
    (ledger.post posting).quantity owner resource =
      ledger.quantity owner resource +
        Receipt.gain { posting := posting, returned := ledger.returned posting } := by
  obtain ⟨owner, transaction⟩ := posting
  obtain ⟨rfl, named, hnamed, hhandle⟩ := Posting.isAbout_iff.1 habout
  simp only [quantity, ← pool?_congr _ owner hhandle]
  cases hfound : ledger.pool? owner named with
  | none =>
    have habsent : ledger.poolOf? owner transaction.resource? = none := by rw [hnamed]; exact hfound
    cases transaction with
    | setUp | limit | assign => simp [Transaction.isDeposit, Transaction.isWithdrawal] at hkind
    | deposit _ amount | withdraw _ amount =>
      have hperform := perform_of_absent rfl habsent
      rw [post_of_perform hperform, returned_of_perform hperform, hfound]
      simp [Receipt.gain, Transaction.amount]
  | some pool =>
    cases transaction with
    | setUp | limit | assign => simp [Transaction.isDeposit, Transaction.isWithdrawal] at hkind
    | deposit _ amount =>
      obtain rfl : _ = some named := hnamed
      obtain ⟨after, held, returned, hperform, hafter, hreturned, -⟩ :=
        perform_deposit hfound amount
      rw [post_of_perform hperform, returned_of_perform hperform, hafter]
      simp only [Receipt.gain, Pool.quantityIn]
      omega
    | withdraw _ amount =>
      obtain rfl : _ = some named := hnamed
      obtain ⟨after, held, refused, hperform, hafter, hpays⟩ := perform_withdraw hfound amount
      rw [post_of_perform hperform, returned_of_perform hperform, hafter]
      simp only [Receipt.gain, Pool.quantityIn]
      obtain ⟨-, hrefused, hheld, -⟩ | ⟨-, hrefused, hheld⟩ := hpays <;> omega

/-- The receipts of those postings that are about the owner's pool of the resource. -/
def receiptsAbout (ledger : Ledger) (postings : List Posting) (owner : Owner)
    (resource : Resource) : List Receipt :=
  (ledger.receipts postings).filter fun receipt ↦ receipt.posting.isAbout owner resource

theorem receiptsAbout_cons (ledger : Ledger) (posting : Posting) (later : List Posting)
    (owner : Owner) (resource : Resource) :
    ledger.receiptsAbout (posting :: later) owner resource =
      if posting.isAbout owner resource then
        { posting := posting, returned := ledger.returned posting } ::
          (ledger.post posting).receiptsAbout later owner resource
      else (ledger.post posting).receiptsAbout later owner resource :=
  List.filter_cons

/-- Over a run of deposits and withdrawals a quantity changes by what its receipts tell. -/
theorem quantity_eq_add_gain (ledger : Ledger) (owner : Owner) (resource : Resource)
    {postings : List Posting}
    (h : ∀ posting ∈ postings, posting.isAbout owner resource = true →
      posting.transaction.isDeposit ∨ posting.transaction.isWithdrawal) :
    (ledger.postAll postings).quantity owner resource = ledger.quantity owner resource +
      Receipt.sum Receipt.gain (ledger.receiptsAbout postings owner resource) := by
  induction postings generalizing ledger with
  | nil => exact (Int.add_zero _).symm
  | cons posting later ih =>
    obtain ⟨hkind, hlater⟩ := List.forall_mem_cons.1 h
    rw [postAll_cons, ih (ledger.post posting) hlater, receiptsAbout_cons]
    cases habout : posting.isAbout owner resource with
    | false => simp [quantity, pool?_post_of_not_isAbout habout]
    | true =>
      rw [if_pos rfl, Receipt.sum, ledger.quantity_post owner resource habout (hkind habout),
        Int.add_assoc]

/-- Over a run of deposits and withdrawals a quantity grows by what is deposited less what deposits
return, and shrinks by what is withdrawn less what withdrawals return. -/
theorem quantity_postAll (ledger : Ledger) (owner : Owner) (resource : Resource)
    {postings : List Posting}
    (h : ∀ posting ∈ postings, posting.isAbout owner resource = true →
      posting.transaction.isDeposit ∨ posting.transaction.isWithdrawal) :
    (ledger.postAll postings).quantity owner resource =
      Receipt.balance (ledger.quantity owner resource)
        (ledger.receiptsAbout postings owner resource) := by
  rw [ledger.quantity_eq_add_gain owner resource h, Receipt.add_gain_eq_balance]

/-! ### Books that are kept -/

/-- The pools of a ledger stand as the postings made so far set them up, and further postings change
them as transactions are meant to. -/
structure KeptBooks (ledger : Ledger) (postings : List Posting) : Prop where
  /-- The pools of each owner stand in the order in which they were first set up. -/
  order : ∀ owner,
    ledger.handlesOf owner = (postings.filterMap (Posting.opened? owner)).eraseDups
  /-- An owner has at most one pool of a resource. -/
  distinct : ∀ owner, (ledger.handlesOf owner).Nodup
  /-- A posting leaves all pools but that of its owner and resource as they are. -/
  apart : ∀ posting : Posting,
    ((ledger.post posting).pools.filter fun pool ↦ !posting.isAbout pool.owner pool.resource) =
      ledger.pools.filter fun pool ↦ !posting.isAbout pool.owner pool.resource
  /-- Without a pool, or without a resource, nothing is moved. -/
  absent : ∀ owner (transaction : Transaction), transaction.capacity? = none →
    ledger.poolOf? owner transaction.resource? = none →
      ledger.perform owner transaction = .ok (ledger, transaction.amount)
  deposit : ∀ owner resource pool amount, ledger.pool? owner resource = some pool →
    ∃ after held returned,
      ledger.perform owner (.deposit (some resource) amount) = .ok (after, returned) ∧
      after.pool? owner resource = some { pool with quantity := held } ∧
      pool.Settles (pool.quantity + amount) held returned
  assign : ∀ owner resource pool amount, ledger.pool? owner resource = some pool →
    ∃ after held returned,
      ledger.perform owner (.assign (some resource) amount) = .ok (after, returned) ∧
      after.pool? owner resource = some { pool with quantity := held } ∧
      pool.Settles amount held returned
  withdraw : ∀ owner resource pool amount, ledger.pool? owner resource = some pool →
    ∃ after held refused,
      ledger.perform owner (.withdraw (some resource) amount) = .ok (after, refused) ∧
      after.pool? owner resource = some { pool with quantity := held } ∧
      pool.Pays amount held refused
  /-- Deposits and withdrawals, among any postings about other pools, balance. -/
  balance : ∀ owner resource (later : List Posting),
    (∀ posting ∈ later, posting.isAbout owner resource = true →
      posting.transaction.isDeposit ∨ posting.transaction.isWithdrawal) →
    (ledger.postAll later).quantity owner resource =
      Receipt.balance (ledger.quantity owner resource)
        (ledger.receiptsAbout later owner resource)

/-- Whatever is posted to an empty ledger without negative capacities, its books are kept: an owner
has one pool of a resource, in the order of first creation; a posting shows in its own pool alone;
where there is no pool the whole amount is returned; deposits and assignments are settled in the
range of the pool, and withdrawals made as a whole or not at all; and what was returned accounts for
the difference. -/
theorem keptBooks_postAll {postings : List Posting}
    (h : ∀ posting ∈ postings, ∀ capacity ∈ posting.transaction.capacity?, 0 ≤ capacity) :
    (postAll {} postings).KeptBooks postings where
  order := handlesOf_postAll postings
  distinct := nodup_handlesOf_postAll postings
  apart := filter_post _
  absent _ _ := perform_of_absent
  deposit owner resource pool amount hfound := by
    have hcapacity := (wellSetUp_postAll h).capacity_nonneg pool (List.mem_of_find?_eq_some hfound)
    obtain ⟨after, held, returned, hperform, hafter, rfl, rfl⟩ := perform_deposit hfound amount
    exact ⟨after, _, _, hperform, hafter, Pool.settles_fitting hcapacity _⟩
  assign owner resource pool amount hfound := by
    have hcapacity := (wellSetUp_postAll h).capacity_nonneg pool (List.mem_of_find?_eq_some hfound)
    obtain ⟨after, held, returned, hperform, hafter, rfl, rfl⟩ := perform_assign hfound amount
    exact ⟨after, _, _, hperform, hafter, Pool.settles_fitting hcapacity _⟩
  withdraw _ _ _ amount hfound := perform_withdraw hfound amount
  balance owner resource _ hlater := quantity_postAll _ owner resource hlater

/-- The wood keeps its place when it is set up anew, and is then limited to less than there is. -/
theorem keptBooks_postAll_store :
    let wood : Resource := { handle := 1, key := "wood", singular := "wood", plural := "wood" }
    let grain : Resource := { handle := 2, key := "grain", singular := "grain", plural := "grain" }
    let pool (resource : Resource) (quantity capacity : Int) : Pool :=
      { owner := .world, resource := resource, quantity := quantity, capacity := capacity }
    let postings : List Posting :=
      [.setUp wood 10 4, .limit grain 5, .setUp wood 9 8, .limit wood 3, .deposit grain 2,
        .withdraw (some wood) (-1), .withdraw none 7].map (Posting.mk .world)
    (postAll {} postings).pools = [pool wood 9 3, pool grain 2 5] ∧
      (postAll {} postings).KeptBooks postings := by
  intro wood grain pool postings
  have hcapacities : ∀ posting ∈ postings, ∀ capacity ∈ posting.transaction.capacity?,
      0 ≤ capacity := by decide
  exact ⟨by decide, keptBooks_postAll hcapacities⟩

end Ledger

end TickEconomy
