import TickEconomy.Proofs.Sequence
import TickEconomy.Resource.Parse
import TickEconomy.Rule.Parse
import TickEconomy.Scenario.Parse

/-!
# Ways to read the blocks of a text

Resource, rule and scenario texts are read in one way: block by block, from one state to the next,
and then, if the text has no fault, the last state is brought to a result (`Dialect`). What holds of
this way of reading holds of the three kinds of texts (`Resource.parse_eq_dialect`, `Rule.dialect`,
`Scenario.dialect`). So two readings go on alike when each of their steps does, whatever the states
are made into on the way from the one to the other (`Dialect.parse_map`).
-/

set_option autoImplicit false
set_option relaxedAutoImplicit false

namespace TickEconomy

/-- A way to read the blocks of a text. -/
structure Dialect (State Result : Type) where
  /-- Where the reading starts from. -/
  start : State
  /-- What a block adds. -/
  add : State → Block → Except ParseError State
  /-- What comes of it when all blocks are read and the text has no fault. -/
  close : State → Except ParseError Result

namespace Dialect

variable {State Result OtherState OtherResult : Type}

/-- What the lines of a text come to. -/
def parse (dialect : Dialect State Result) (lines : List (List Char)) :
    Except ParseError Result := do
  let reading := Reading.ofLines lines
  let reached ← reading.blocks.foldlM dialect.add dialect.start
  let complete ← reading.finish reached
  dialect.close complete

/-- A text comes to what its blocks and its fault come to. -/
theorem parse_congr {dialect : Dialect State Result} {lines others : List (List Char)}
    (h : Reading.ofLines lines = Reading.ofLines others) :
    dialect.parse lines = dialect.parse others := by
  rw [parse, parse, h]

/-- When each step of a reading is that of another one up to a change of the states, so is what a
text comes to, up to a change of the results. -/
theorem parse_map {dialect : Dialect State Result} {other : Dialect OtherState OtherResult}
    (changeState : State → OtherState) (changeResult : Result → OtherResult)
    (hstart : other.start = changeState dialect.start)
    (hadd : ∀ state block,
      other.add (changeState state) block = changeState <$> dialect.add state block)
    (hclose : ∀ state, other.close (changeState state) = changeResult <$> dialect.close state)
    (lines : List (List Char)) : other.parse lines = changeResult <$> dialect.parse lines := by
  have hblocks := foldlM_map_state changeState hadd (Reading.ofLines lines).blocks dialect.start
  rw [parse, parse, hstart, hblocks, map_bind]
  cases (Reading.ofLines lines).blocks.foldlM dialect.add dialect.start with
  | error error => rfl
  | ok reached =>
    change (do other.close (← (Reading.ofLines lines).finish (changeState reached))) =
      changeResult <$> (do dialect.close (← (Reading.ofLines lines).finish reached))
    unfold Reading.finish
    cases (Reading.ofLines lines).fault with
    | some fault => rfl
    | none => exact hclose reached

end Dialect

/-! ### The three kinds of texts -/

/-- How the blocks of a resource text are read. -/
def Resource.dialect (firstHandle : Nat) : Dialect Catalog (List Resource) where
  start := {}
  add := addBlock firstHandle
  close catalog := .ok catalog.resources

/-- How the blocks of a rule text are read. -/
def Rule.dialect (catalog : Catalog) (firstHandle : Nat) : Dialect (List Draft) (List Rule) where
  start := []
  add := Draft.addBlock catalog firstHandle
  close := Draft.linkAll

/-- How the blocks of a scenario text are read. -/
def Scenario.dialect (catalog : Catalog) (rules : List Rule) : Dialect ScenarioDraft Scenario where
  start := {}
  add := ScenarioDraft.addBlock catalog rules
  close := ScenarioDraft.resolveAll

theorem Resource.parse_eq_dialect (firstHandle : Nat) :
    parse firstHandle = (dialect firstHandle).parse := by
  funext lines
  refine bind_congr fun catalog ↦ ?_
  unfold Reading.finish
  cases (Reading.ofLines lines).fault <;> rfl

theorem Rule.parse_eq_dialect (catalog : Catalog) (firstHandle : Nat) :
    parse catalog firstHandle = (dialect catalog firstHandle).parse :=
  rfl

theorem Scenario.parse_eq_dialect (catalog : Catalog) (rules : List Rule) :
    parse catalog rules = (dialect catalog rules).parse :=
  rfl

end TickEconomy
