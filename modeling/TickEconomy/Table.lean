/-!
# Tables in order of entry

A table assigns values to keys and keeps the keys in the order in which they were first entered.
Entering a key again replaces its value and keeps its place (`Table.put`). The value of a key after
an entry is given by `Table.get?_put`. Entries with distinct keys stand in a table as they were
entered (`Table.entries_ofEntries`).
-/

set_option autoImplicit false
set_option relaxedAutoImplicit false

namespace TickEconomy

/-- Keys with their values, in order of first entry. -/
structure Table (Key Value : Type) where
  /-- The keys and values, the earliest first. -/
  entries : List (Key × Value) := []
  deriving DecidableEq, Repr

namespace Table

variable {Key Value : Type} [DecidableEq Key]

/-- The value of a key. -/
def get? (table : Table Key Value) (key : Key) : Option Value :=
  (table.entries.find? fun entry ↦ entry.1 = key).map Prod.snd

/-- The keys in order of first entry. -/
def keys (table : Table Key Value) : List Key :=
  table.entries.map Prod.fst

/-- The entries with one key set to a value. -/
def putEntry (key : Key) (value : Value) : List (Key × Value) → List (Key × Value)
  | [] => [(key, value)]
  | entry :: rest =>
    if entry.1 = key then (key, value) :: rest else entry :: putEntry key value rest

/-- The table with the value of one key set: in its place if the key is in the table, at the end
otherwise. -/
def put (table : Table Key Value) (key : Key) (value : Value) : Table Key Value :=
  ⟨putEntry key value table.entries⟩

/-- The table with the values of several keys set, one after the other. -/
def putAll (table : Table Key Value) (entries : List (Key × Value)) : Table Key Value :=
  entries.foldl (fun reached entry ↦ reached.put entry.1 entry.2) table

/-- The table with the given entries, where the later of two entries with one key counts. -/
def ofEntries (entries : List (Key × Value)) : Table Key Value :=
  ({} : Table Key Value).putAll entries

/-! ### What an entry changes -/

theorem find?_putEntry (entries : List (Key × Value)) (key other : Key) (value : Value) :
    ((putEntry key value entries).find? fun entry ↦ entry.1 = other).map Prod.snd =
      if key = other then some value
      else (entries.find? fun entry ↦ entry.1 = other).map Prod.snd := by
  induction entries with
  | nil => by_cases h : key = other <;> simp [putEntry, h]
  | cons entry rest ih =>
    rw [putEntry]
    split
    · next hentry =>
      subst hentry
      by_cases h : entry.1 = other <;> simp [h]
    · next hentry =>
      by_cases hother : entry.1 = other
      · have h : ¬ key = other := fun e ↦ hentry (hother.trans e.symm)
        simp [hother, h]
      · simpa [List.find?_cons, hother] using ih

/-- An entry sets the value of its key and of no other. -/
@[simp]
theorem get?_put (table : Table Key Value) (key other : Key) (value : Value) :
    (table.put key value).get? other = if key = other then some value else table.get? other :=
  find?_putEntry table.entries key other value

/-- A new key is entered behind all others. -/
theorem put_of_not_mem {table : Table Key Value} {key : Key} (h : key ∉ table.keys)
    (value : Value) : table.put key value = ⟨table.entries ++ [(key, value)]⟩ := by
  obtain ⟨entries⟩ := table
  simp only [keys, put, Table.mk.injEq] at h ⊢
  induction entries with
  | nil => rfl
  | cons entry rest ih =>
    rw [List.map_cons, List.mem_cons, not_or] at h
    rw [putEntry, if_neg fun hsame ↦ h.1 hsame.symm, ih h.2]
    rfl

/-- New and distinct keys are entered in order behind all others. -/
theorem putAll_of_nodup {table : Table Key Value} {entries : List (Key × Value)}
    (h : (table.keys ++ entries.map Prod.fst).Nodup) :
    table.putAll entries = ⟨table.entries ++ entries⟩ := by
  induction entries generalizing table with
  | nil =>
    rw [List.append_nil]
    rfl
  | cons entry later ih =>
    have hnew : entry.1 ∉ table.keys := fun hmem ↦
      (List.nodup_append.1 h).2.2 _ hmem _ List.mem_cons_self rfl
    rw [putAll, List.foldl_cons, put_of_not_mem hnew]
    refine (ih ?_).trans ?_
    · simpa [keys] using h
    · simp

theorem entries_ofEntries {entries : List (Key × Value)} (h : (entries.map Prod.fst).Nodup) :
    (ofEntries entries).entries = entries := by
  have hkeys : (({} : Table Key Value).keys ++ entries.map Prod.fst).Nodup := h
  rw [ofEntries, putAll_of_nodup hkeys]
  rfl

end Table

end TickEconomy
