import Mathlib.Data.List.Forall2
import Mathlib.Data.List.Nodup

/-!
# Sequences of steps that may fail

A sequence of steps of which each may fail comes to a result only when every step does. What a
sequence of two steps comes to is told by `bind_eq_ok_iff` and `bind_eq_error_iff`; from these
follow what a list of steps comes to when each is taken on its own (`forall₂_of_mapM_eq_ok`,
`mapM_eq_error_iff`), and what holds at the end of a list of steps, or at the first that fails, when
each starts from where the one before ended (`of_foldlM_eq_ok`, `foldlM_eq_error_iff`). When all
steps are changed alike, so is what they come to (`foldlM_map_state`, `mapM_map_value`). Steps on a
state end with the state that they reached, and further steps go on from it unless the first of them
failed (`steps_bind_of_ok`, `steps_bind_of_error`). Many steps look something up in a list;
`find?_eq_some_iff_of_unique` and `find?_eq_some_of_nodup` tell when this finds what is meant.
-/

set_option autoImplicit false
set_option relaxedAutoImplicit false

namespace TickEconomy

variable {Error Value Result Item : Type}

/-- Two steps come to a result when the first comes to a value and the second, from there, to the
result. -/
theorem bind_eq_ok_iff {first : Except Error Value} {second : Value → Except Error Result}
    {result : Result} :
    (first >>= second) = .ok result ↔ ∃ value, first = .ok value ∧ second value = .ok result := by
  cases first with
  | error error => simp [bind, Except.bind]
  | ok value => simp [bind, Except.bind]

/-- Two steps fail when the first fails, or when it comes to a value from which the second fails. -/
theorem bind_eq_error_iff {first : Except Error Value} {second : Value → Except Error Result}
    {error : Error} : (first >>= second) = .error error ↔
      first = .error error ∨ ∃ value, first = .ok value ∧ second value = .error error := by
  cases first with
  | error firstError => simp [bind, Except.bind]
  | ok value => simp [bind, Except.bind]

/-- A step whose value is changed comes to a result when the step comes to a value that the change
makes the result. -/
theorem map_eq_ok_iff {step : Except Error Value} {change : Value → Result} {result : Result} :
    change <$> step = .ok result ↔ ∃ value, step = .ok value ∧ change value = result := by
  cases step with
  | error error => simp [Functor.map, Except.map]
  | ok value => simp [Functor.map, Except.map]

/-- The value of two steps, errors aside, is that of the second from the value of the first. -/
theorem toOption_bind (first : Except Error Value) (second : Value → Except Error Result) :
    (first >>= second).toOption = first.toOption.bind fun value ↦ (second value).toOption := by
  cases first <;> rfl

/-- The value of a changed step, errors aside, is the changed value of the step. -/
theorem toOption_map (change : Value → Result) (step : Except Error Value) :
    (change <$> step).toOption = step.toOption.map change := by
  cases step <;> rfl

/-- A step comes to its value, errors aside. -/
theorem toOption_eq_some_iff {step : Except Error Value} {value : Value} :
    step.toOption = some value ↔ step = .ok value := by
  cases step <;> simp [Except.toOption]

/-- A list of steps taken one by one comes to the list of what each of them comes to. -/
theorem forall₂_of_mapM_eq_ok {step : Item → Except Error Value} {items : List Item}
    {values : List Value} (h : items.mapM step = .ok values) :
    List.Forall₂ (fun item value ↦ step item = .ok value) items values := by
  induction items generalizing values with
  | nil =>
    simp only [List.mapM_nil, pure, Except.pure, Except.ok.injEq] at h
    exact h ▸ List.Forall₂.nil
  | cons item later ih =>
    rw [List.mapM_cons] at h
    obtain ⟨value, hvalue, hrest⟩ := bind_eq_ok_iff.1 h
    obtain ⟨rest, hlater, hvalues⟩ := bind_eq_ok_iff.1 hrest
    simp only [pure, Except.pure, Except.ok.injEq] at hvalues
    exact hvalues ▸ List.Forall₂.cons hvalue (ih hlater)

/-- A list of steps that each come to a value, taken one by one, comes to the list of these. -/
theorem mapM_eq_ok_of_forall₂ {step : Item → Except Error Value} {items : List Item}
    {values : List Value} (h : List.Forall₂ (fun item value ↦ step item = .ok value) items values) :
    items.mapM step = .ok values := by
  induction h with
  | nil => rfl
  | @cons item value items values hvalue _ ih =>
    rw [List.mapM_cons, hvalue, ih]
    rfl

/-- A list of steps taken one by one fails with the first of them that does. -/
theorem mapM_eq_error_iff {step : Item → Except Error Value} {items : List Item} {error : Error} :
    items.mapM step = .error error ↔ ∃ earlier item later, items = earlier ++ item :: later ∧
      (∀ passed ∈ earlier, ∃ value, step passed = .ok value) ∧ step item = .error error := by
  induction items with
  | nil => simp [pure, Except.pure]
  | cons first rest ih =>
    rw [List.mapM_cons, bind_eq_error_iff]
    constructor
    · rintro (hfirst | ⟨value, hvalue, hlater⟩)
      · exact ⟨[], first, rest, rfl, by simp, hfirst⟩
      · obtain hlater | ⟨values, -, hvalues⟩ := bind_eq_error_iff.1 hlater
        · obtain ⟨earlier, item, later, rfl, hearlier, hitem⟩ := ih.1 hlater
          exact ⟨first :: earlier, item, later, rfl,
            List.forall_mem_cons.2 ⟨⟨value, hvalue⟩, hearlier⟩, hitem⟩
        · cases hvalues
    · rintro ⟨earlier, item, later, hitems, hearlier, hitem⟩
      cases earlier with
      | nil =>
        obtain ⟨rfl, -⟩ := List.cons.inj hitems
        exact .inl hitem
      | cons passed earlier =>
        obtain ⟨rfl, rfl⟩ := List.cons.inj hitems
        obtain ⟨⟨value, hvalue⟩, hothers⟩ := List.forall_mem_cons.1 hearlier
        have hlater := ih.2 ⟨earlier, item, later, rfl, hothers, hitem⟩
        exact .inr ⟨value, hvalue, bind_eq_error_iff.2 (.inl hlater)⟩

/-- A list of steps taken one by one comes to something when each of them does. -/
theorem exists_mapM_eq_ok {step : Item → Except Error Value} {items : List Item}
    (h : ∀ item ∈ items, ∃ value, step item = .ok value) :
    ∃ values, items.mapM step = .ok values := by
  cases hresult : items.mapM step with
  | ok values => exact ⟨values, rfl⟩
  | error error =>
    obtain ⟨earlier, item, later, rfl, -, hitem⟩ := mapM_eq_error_iff.1 hresult
    obtain ⟨value, hvalue⟩ := h item (by simp)
    exact absurd (hitem.symm.trans hvalue) nofun

/-- What is matched by a list that is matched one to one has something that it is matched with. -/
theorem exists_of_forall₂_of_mem {matched : Item → Value → Prop} {items : List Item}
    {values : List Value} (h : List.Forall₂ matched items values) {value : Value}
    (hvalue : value ∈ values) : ∃ item ∈ items, matched item value := by
  induction h with
  | nil => cases hvalue
  | @cons item first items values hfirst _ ih =>
    rcases List.mem_cons.1 hvalue with rfl | hlater
    · exact ⟨item, List.mem_cons_self, hfirst⟩
    · obtain ⟨other, hother, hmatched⟩ := ih hlater
      exact ⟨other, List.mem_cons_of_mem _ hother, hmatched⟩

/-- When each of some things has a match, there is a list that they are matched with one to one. -/
theorem exists_forall₂ {matched : Item → Value → Prop} {items : List Item}
    (h : ∀ item ∈ items, ∃ value, matched item value) :
    ∃ values, List.Forall₂ matched items values := by
  induction items with
  | nil => exact ⟨[], List.Forall₂.nil⟩
  | cons item items ih =>
    obtain ⟨⟨value, hvalue⟩, hothers⟩ := List.forall_mem_cons.1 h
    obtain ⟨values, hvalues⟩ := ih hothers
    exact ⟨value :: values, List.Forall₂.cons hvalue hvalues⟩

/-- Lists that are each matched with a list in between are matched with each other. -/
theorem forall₂_trans {before : Item → Value → Prop} {behind : Value → Result → Prop}
    {related : Item → Result → Prop}
    (htrans : ∀ first middle last, before first middle → behind middle last → related first last)
    {firsts : List Item} {middles : List Value} {lasts : List Result}
    (hfirst : List.Forall₂ before firsts middles) (hlast : List.Forall₂ behind middles lasts) :
    List.Forall₂ related firsts lasts := by
  induction hfirst generalizing lasts with
  | nil =>
    cases hlast
    exact List.Forall₂.nil
  | @cons first middle firsts middles hpair _ ih =>
    obtain ⟨last, others, hnext, hothers, rfl⟩ := List.forall₂_cons_left_iff.1 hlast
    exact List.Forall₂.cons (htrans first middle last hpair hnext) (ih hothers)

/-- Lists that are matched agree in what their members have in common. -/
theorem map_eq_map_of_forall₂ {matched : Item → Value → Prop} {first : Item → Result}
    {second : Value → Result} {items : List Item} {values : List Value}
    (h : List.Forall₂ matched items values)
    (hsame : ∀ item value, matched item value → first item = second value) :
    items.map first = values.map second := by
  rw [← List.forall₂_eq_eq_eq, List.forall₂_map_left_iff, List.forall₂_map_right_iff]
  exact h.imp hsame

/-- Lists stay matched when the members of the second are changed, each into one that still matches
whatever it matched. -/
theorem forall₂_map_of_kept {matched : Item → Value → Prop} {items : List Item}
    {values : List Value} (h : List.Forall₂ matched items values) {change : Value → Value}
    (hchange : ∀ value ∈ values, ∀ item, matched item value → matched item (change value)) :
    List.Forall₂ matched items (values.map change) := by
  induction h with
  | nil => exact List.Forall₂.nil
  | @cons item first items values hfirst _ ih =>
    have hlater := ih fun value hvalue ↦ hchange value (List.mem_cons_of_mem _ hvalue)
    exact List.Forall₂.cons (hchange first List.mem_cons_self item hfirst) hlater

/-- What holds at first and is kept by every step that comes to something holds at the end. -/
theorem of_foldlM_eq_ok {step : Result → Item → Except Error Result} (holds : Result → Prop)
    {items : List Item} {first last : Result}
    (hstep : ∀ item ∈ items, ∀ reached next, holds reached → step reached item = .ok next →
      holds next)
    (hfirst : holds first) (h : items.foldlM step first = .ok last) : holds last := by
  induction items generalizing first with
  | nil =>
    simp only [List.foldlM_nil, pure, Except.pure, Except.ok.injEq] at h
    exact h ▸ hfirst
  | cons item later ih =>
    rw [List.foldlM_cons] at h
    obtain ⟨next, hnext, hlast⟩ := bind_eq_ok_iff.1 h
    refine ih (fun other hother ↦ hstep other (List.mem_cons_of_mem item hother)) ?_ hlast
    exact hstep item List.mem_cons_self first next hfirst hnext

/-- Steps taken in turn fail with the first of them that does, from where those before it led. -/
theorem foldlM_eq_error_iff {step : Result → Item → Except Error Result} {items : List Item}
    {first : Result} {error : Error} : items.foldlM step first = .error error ↔
      ∃ earlier item later reached, items = earlier ++ item :: later ∧
        earlier.foldlM step first = .ok reached ∧ step reached item = .error error := by
  constructor
  · intro h
    induction items generalizing first with
    | nil => cases h
    | cons item items ih =>
      rw [List.foldlM_cons] at h
      obtain hitem | ⟨next, hnext, hlater⟩ := bind_eq_error_iff.1 h
      · exact ⟨[], item, items, first, rfl, rfl, hitem⟩
      · obtain ⟨earlier, other, later, reached, rfl, hearlier, hother⟩ := ih hlater
        refine ⟨item :: earlier, other, later, reached, rfl, ?_, hother⟩
        rw [List.foldlM_cons]
        exact bind_eq_ok_iff.2 ⟨next, hnext, hearlier⟩
  · rintro ⟨earlier, item, later, reached, rfl, hearlier, hitem⟩
    rw [List.foldlM_append]
    refine bind_eq_error_iff.2 (.inr ⟨reached, hearlier, ?_⟩)
    rw [List.foldlM_cons]
    exact bind_eq_error_iff.2 (.inl hitem)

/-- Steps taken in turn from changed states lead to the changed state when every step does. -/
theorem foldlM_map_state {Changed : Type} (change : Result → Changed)
    {step : Result → Item → Except Error Result} {changed : Changed → Item → Except Error Changed}
    (h : ∀ reached item, changed (change reached) item = change <$> step reached item)
    (items : List Item) (first : Result) :
    items.foldlM changed (change first) = change <$> items.foldlM step first := by
  induction items generalizing first with
  | nil => rfl
  | cons item items ih =>
    rw [List.foldlM_cons, List.foldlM_cons, h]
    cases step first item with
    | error error => rfl
    | ok next => exact ih next

/-- Steps taken one by one come to the changed values when every step does. -/
theorem mapM_map_value {Changed : Type} (change : Value → Changed)
    {step : Item → Except Error Value} {changed : Item → Except Error Changed}
    (h : ∀ item, changed item = change <$> step item) (items : List Item) :
    items.mapM changed = List.map change <$> items.mapM step := by
  induction items with
  | nil => rfl
  | cons item items ih =>
    rw [List.mapM_cons, List.mapM_cons, h, ih]
    cases step item with
    | error error => rfl
    | ok value => cases items.mapM step <;> rfl

/-- A list of steps taken one by one comes, errors aside, to what each of them comes to. -/
theorem toOption_mapM (step : Item → Except Error Value) (items : List Item) :
    (items.mapM step).toOption = items.mapM fun item ↦ (step item).toOption := by
  induction items with
  | nil => rfl
  | cons item later ih =>
    rw [List.mapM_cons, List.mapM_cons, toOption_bind, ← ih]
    refine Option.bind_congr fun value _ ↦ ?_
    cases later.mapM step <;> rfl

/-- Steps taken in turn, of each of which a view of its result depends on the view of the state
before it and on what its item is read as, come to what all items are read as. -/
theorem view_foldlM {View : Type} (view : Result → View) (say : View → Value → View)
    {step : Result → Item → Except Error Result} {read : Item → Option Value}
    (h : ∀ reached item,
      (step reached item).toOption.map view = (read item).map (say (view reached)))
    (items : List Item) (first : Result) :
    (items.foldlM step first).toOption.map view =
      (items.mapM read).map fun values ↦ values.foldl say (view first) := by
  induction items generalizing first with
  | nil => rfl
  | cons item later ih =>
    have hitem := h first item
    rw [List.foldlM_cons, toOption_bind, List.mapM_cons]
    cases hread : read item with
    | none =>
      rw [hread, Option.map_none, Option.map_eq_none_iff] at hitem
      rw [hitem]
      rfl
    | some value =>
      rw [hread, Option.map_some, Option.map_eq_some_iff] at hitem
      obtain ⟨next, hnext, hview⟩ := hitem
      rw [hnext, Option.bind_some, ih, hview]
      cases later.mapM read <;> rfl

/-- A list of readings comes to something when each of them does, and then to all that they come
to. -/
theorem mapM_eq_some_iff {read : Item → Option Value} {items : List Item} {values : List Value} :
    items.mapM read = some values ↔
      (∀ item ∈ items, (read item).isSome) ∧ items.filterMap read = values := by
  induction items generalizing values with
  | nil => simp
  | cons item later ih =>
    simp only [List.mapM_cons, Option.bind_eq_bind, Option.bind_eq_some_iff, Option.pure_def,
      Option.some.injEq, List.forall_mem_cons]
    constructor
    · rintro ⟨value, hvalue, rest, hrest, rfl⟩
      obtain ⟨hlater, hvalues⟩ := ih.1 hrest
      exact ⟨⟨hvalue ▸ rfl, hlater⟩, by rw [List.filterMap_cons_some hvalue, hvalues]⟩
    · rintro ⟨⟨hitem, hlater⟩, rfl⟩
      obtain ⟨value, hvalue⟩ := Option.isSome_iff_exists.1 hitem
      exact ⟨value, hvalue, _, ih.2 ⟨hlater, rfl⟩, (List.filterMap_cons_some hvalue).symm⟩

section States

variable {State Other : Type} {steps : EStateM Error State Value}
  {next : Value → EStateM Error State Other} {state reached : State}

/-- Further steps go on from where the steps before them led. -/
theorem steps_bind_of_ok {value : Value} (h : steps state = .ok value reached) :
    (steps >>= next) state = next value reached := by
  simp only [bind, EStateM.bind, h]

/-- Steps that fail are not followed by further ones. -/
theorem steps_bind_of_error {error : Error} (h : steps state = .error error reached) :
    (steps >>= next) state = .error error reached := by
  simp only [bind, EStateM.bind, h]

/-- Steps may look at the state that they go on from. -/
theorem steps_get_bind (next : State → EStateM Error State Value) (state : State) :
    (get >>= next) state = next state state :=
  rfl

end States

/-- In a list in which no two members meet a condition, the one that meets it is found. -/
theorem find?_eq_some_iff_of_unique {condition : Item → Bool} {items : List Item}
    (h : ∀ first ∈ items, condition first = true → ∀ second ∈ items, condition second = true →
      first = second) {item : Item} :
    items.find? condition = some item ↔ item ∈ items ∧ condition item = true := by
  refine ⟨fun hfind ↦ ⟨List.mem_of_find?_eq_some hfind, List.find?_some hfind⟩, ?_⟩
  rintro ⟨hmem, hitem⟩
  obtain ⟨found, hfound⟩ := Option.isSome_iff_exists.1 (List.find?_isSome.2 ⟨item, hmem, hitem⟩)
  rw [hfound, h found (List.mem_of_find?_eq_some hfound) (List.find?_some hfound) item hmem hitem]

/-- In a list of members with distinct keys a member is found by its key. -/
theorem find?_eq_some_of_nodup {Key : Type} [DecidableEq Key] {key : Item → Key}
    {items : List Item} (h : (items.map key).Nodup) {item : Item} (hitem : item ∈ items) :
    (items.find? fun other ↦ key other = key item) = some item := by
  refine (find?_eq_some_iff_of_unique ?_).2 ⟨hitem, decide_eq_true rfl⟩
  intro first hfirst hfirstKey second hsecond hsecondKey
  exact List.inj_on_of_nodup_map h hfirst hsecond
    ((of_decide_eq_true hfirstKey).trans (of_decide_eq_true hsecondKey).symm)

end TickEconomy
