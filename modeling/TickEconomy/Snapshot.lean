import TickEconomy.Report

/-!
# Snapshots

A snapshot is the state of a simulation as a JSON text: an object with the tick, what the world
holds, and what each agent holds (`Simulation.snapshot`, `Snapshot.text`). Members stand each on a
line of their own, indented by two blanks for every object around them, and an object without
members is `{}`. The text is ASCII: in a string every other character, the quotation mark and
the backslash are written behind a backslash, by a letter or by a code of four hexadecimal digits,
and a character beyond the first 65536 by the codes of its two surrogates (`jsonCharacter`).

Every value is written as soon as its name is, so the text breaks off between the name and the value
of a number with too many digits (`jsonInteger`). It does so just when it has such a number
(`Snapshot.isWhole_text_iff`).
-/

set_option autoImplicit false
set_option relaxedAutoImplicit false

namespace TickEconomy

/-! ### Strings and objects -/

/-- A code of sixteen bits in a JSON string. -/
def jsonUnit (code : Nat) : List Char :=
  '\\' :: 'u' :: Text.writeHexadecimal 4 code

/-- A character in a JSON string. -/
def jsonCharacter (character : Char) : List Char :=
  let code := character.toNat
  if character = '"' || character = '\\' then ['\\', character]
  else if code = 0x08 then ['\\', 'b']
  else if code = 0x09 then ['\\', 't']
  else if code = 0x0a then ['\\', 'n']
  else if code = 0x0c then ['\\', 'f']
  else if code = 0x0d then ['\\', 'r']
  else if 0x20 ≤ code && code < 0x7f then [character]
  else if code < 0x10000 then jsonUnit code
  else
    jsonUnit (0xd800 + (code - 0x10000) / 0x400) ++ jsonUnit (0xdc00 + (code - 0x10000) % 0x400)

/-- A JSON string. -/
def jsonString (text : String) : List Char :=
  '"' :: (text.toList.flatMap jsonCharacter ++ ['"'])

/-- The line end before a member of an object, with the indentation of the member. -/
def jsonLineEnd (indentation : Nat) : List Char :=
  '\n' :: List.replicate indentation ' '

/-- What stands before the value of a member of an object. -/
def jsonMemberHead (indentation : Nat) (name : String) : Writing :=
  .part (String.ofList (jsonLineEnd indentation ++ jsonString name ++ [':', ' ']))

/-- The members of an object, each on a line of its own. -/
def jsonMembers (indentation : Nat) : List (String × Writing) → Writing
  | [] => {}
  | [(name, value)] => jsonMemberHead indentation name ++ value
  | (name, value) :: later =>
    jsonMemberHead indentation name ++ value ++ .part "," ++ jsonMembers indentation later

/-- A JSON object, whose closing brace has the given indentation. -/
def jsonObject (indentation : Nat) (members : List (String × Writing)) : Writing :=
  if members.isEmpty then .part "\x7b\x7d"
  else
    .part "\x7b" ++ jsonMembers (indentation + 2) members ++
      .part (String.ofList (jsonLineEnd indentation ++ ['}']))

/-- A JSON number. -/
def jsonInteger (number : Int) : Writing :=
  .part (Text.numeral? number)

@[simp]
theorem isWhole_jsonMembers (indentation : Nat) (members : List (String × Writing)) :
    (jsonMembers indentation members).isWhole = members.all fun member ↦ member.2.isWhole := by
  induction members with
  | nil => rfl
  | cons member later ih =>
    cases later with
    | nil => simp [jsonMembers, jsonMemberHead]
    | cons next further => simp [jsonMembers, jsonMemberHead, ih]

/-- An object is written if and only if the values of all its members are. -/
@[simp]
theorem isWhole_jsonObject (indentation : Nat) (members : List (String × Writing)) :
    (jsonObject indentation members).isWhole = members.all fun member ↦ member.2.isWhole := by
  unfold jsonObject
  split
  · next hnone => simp [List.isEmpty_iff.1 hnone]
  · simp

theorem isWhole_jsonInteger_iff (number : Int) :
    (jsonInteger number).isWhole = true ↔ Text.FitsNumeral number := by
  rw [jsonInteger, Writing.isWhole_part, Text.isSome_numeral?_iff]

/-! ### Snapshots -/

/-- The state of a simulation, as far as a snapshot shows it. -/
structure Snapshot where
  /-- The number of ticks gone through. -/
  tick : Nat
  /-- What the world holds. -/
  world : List (String × Int)
  /-- What each agent holds, by name. -/
  agents : List (String × List (String × Int))
  deriving DecidableEq, Repr

/-- What someone holds, as a JSON object. -/
def jsonHoldings (indentation : Nat) (holdings : List (String × Int)) : Writing :=
  jsonObject indentation (holdings.map fun holding ↦ (holding.1, jsonInteger holding.2))

/-- The numbers that a snapshot shows. -/
def Snapshot.numbers (snapshot : Snapshot) : List Int :=
  snapshot.tick :: (snapshot.world ++ snapshot.agents.flatMap Prod.snd).map Prod.snd

/-- The JSON text of a snapshot. -/
def Snapshot.text (snapshot : Snapshot) : Writing :=
  let agents := snapshot.agents.map fun agent ↦ (agent.1, jsonHoldings 4 agent.2)
  jsonObject 0
    [("tick", jsonInteger snapshot.tick), ("world", jsonHoldings 2 snapshot.world),
      ("agents", jsonObject 2 agents)]

theorem Snapshot.forall_mem_numbers {snapshot : Snapshot} {holds : Int → Prop} :
    (∀ number ∈ snapshot.numbers, holds number) ↔
      holds snapshot.tick ∧ (∀ holding ∈ snapshot.world, holds holding.2) ∧
        ∀ agent ∈ snapshot.agents, ∀ holding ∈ agent.2, holds holding.2 := by
  rw [numbers, List.forall_mem_cons, List.map_append, List.forall_mem_append, List.forall_mem_map,
    List.forall_mem_map, List.forall_mem_flatMap]

/-- A snapshot breaks off if and only if a number that it shows has too many digits. -/
theorem Snapshot.isWhole_text_iff (snapshot : Snapshot) :
    snapshot.text.isWhole = true ↔ ∀ number ∈ snapshot.numbers, Text.FitsNumeral number := by
  simp only [text, jsonHoldings, isWhole_jsonObject, List.all_cons, List.all_map, List.all_nil,
    Bool.and_true, Bool.and_eq_true, List.all_eq_true, Function.comp_apply, isWhole_jsonInteger_iff,
    forall_mem_numbers]

namespace Simulation

/-- The snapshot of the simulation. What the agents hold is filed under their names. -/
def snapshot (simulation : Simulation) : Snapshot :=
  { tick := simulation.tick
    world := simulation.ledger.holdings .world
    agents := (Table.ofEntries simulation.agentHoldings).entries }

/-- The name of the file for a snapshot at a tick, which has at least five digits. -/
def snapshotName (tick : Nat) : String :=
  let digits := String.ofList ((Text.writeNatural tick).leftpad 5 '0')
  s!"snapshot_tick{digits}.json"

end Simulation

end TickEconomy
