import TickEconomy.Rule.Clause

/-!
# Rule texts

A rule text describes rules in blocks of kind `rule`, each under the name of its block, which no
other rule of the text has. A rule may name a fallback that stands later in its text, so its block
first gives a draft, with the fallback by name (`Draft.ofBlock`). Inputs, outputs, sets and
conditions of a block accumulate in their order; of clauses that can hold only once, the last
counts. The rules are numbered from a given handle on, in the order of their blocks.

When all blocks are read, the fallbacks are looked up by name. From each rule they are followed to
a rule without a fallback (`Draft.followFallbacks`). On the way every rule passed is struck from the
rules that may still be reached, which bounds the way by their number. A name that is not among
these either belongs to a rule already passed, so that the fallbacks form a cycle, or to no rule of
the text. An error inside a block is reported before any error about a fallback (`Rule.parse`).

A rule that is the fallback of several others is built anew for each of them. Rules may also be
built once each, with a table of those that are built already, and that makes no difference:
`Draft.linkAll` stands for `Draft.buildAll`, to which it is equal by `Draft.buildAll_eq_linkAll`.
-/

set_option autoImplicit false
set_option relaxedAutoImplicit false

namespace TickEconomy

/-! ### Drafts -/

/-- A fallback by name. -/
structure FallbackReference where
  /-- The name of the rule to be tried. -/
  target : String
  /-- The number of the line that names it. -/
  line : Nat
  deriving DecidableEq, Repr

/-- A rule whose fallback is known by name only. -/
structure Draft where
  /-- The rule without its fallbacks. -/
  body : RuleBody
  /-- The fallback, if the rule has one. -/
  reference : Option FallbackReference := none
  deriving DecidableEq, Repr

namespace Draft

/-- The draft with a further clause, which stands in the given line. -/
def add (draft : Draft) (line : Nat) : Clause → Draft
  | .input specifier =>
    { draft with body.inputs := draft.body.inputs ++ [specifier] }
  | .output specifier =>
    { draft with body.outputs := draft.body.outputs ++ [specifier] }
  | .set specifier =>
    { draft with body.sets := draft.body.sets ++ [specifier] }
  | .condition demand =>
    { draft with body.preconditions := draft.body.preconditions ++ [demand] }
  | .period ticks => { draft with body.period := ticks }
  | .extraRounds count => { draft with body.extraRounds := count }
  | .repeatFrom pool => { draft with body.repeatFrom := some pool }
  | .fallback target => { draft with reference := some { target := target, line := line } }

/-- The draft with the clause that a directive is. -/
def read (catalog : Catalog) (draft : Draft) (directive : Directive) : Except ParseError Draft := do
  let clause ← Clause.ofDirective catalog directive
  return draft.add directive.line clause

/-- The draft of the rule that a block describes, under a given handle. -/
def ofBlock (catalog : Catalog) (handle : Nat) (block : Block) : Except ParseError Draft :=
  block.directives.foldlM (read catalog) { body := { handle := handle, name := block.name } }

/-- The drafts with that of a further block. -/
def addBlock (catalog : Catalog) (firstHandle : Nat) (drafts : List Draft) (block : Block) :
    Except ParseError (List Draft) :=
  if block.kind ≠ "rule" then
    .error { line := block.line, cause := .ruleExpected }
  else if block.name = "" then
    .error { line := block.line, cause := .ruleNameMissing }
  else if block.name ∈ drafts.map fun draft ↦ draft.body.name then
    .error { line := block.line, cause := .ruleDuplicate block.name }
  else do
    let draft ← ofBlock catalog (firstHandle + drafts.length) block
    return drafts ++ [draft]

/-! ### Fallbacks -/

/-- The drafts that are left when those of a name are struck. -/
def without (drafts : List Draft) (name : String) : List Draft :=
  drafts.filter fun draft ↦ draft.body.name ≠ name

theorem length_without_lt {drafts : List Draft} {draft : Draft} (member : draft ∈ drafts) :
    (without drafts draft.body.name).length < drafts.length := by
  apply List.length_filter_lt_length_iff_exists.2
  exact ⟨draft, member, by simp⟩

/-- The bodies of the fallbacks of a draft, in the order in which they are tried. The path holds the
names passed before the draft, and the drafts are those not yet passed. -/
def followFallbacks (drafts : List Draft) (path : List String) (draft : Draft) :
    Except ParseError (List RuleBody) :=
  match draft.reference with
  | none => .ok []
  | some reference =>
    let passed := path ++ [draft.body.name]
    match found : drafts.find? fun other ↦ other.body.name = reference.target with
    | some next =>
      have := length_without_lt (List.mem_of_find?_eq_some found)
      match followFallbacks (without drafts next.body.name) passed next with
      | .ok later => .ok (next.body :: later)
      | .error error => .error error
    | none =>
      if reference.target ∈ passed then
        .error
          { line := reference.line
            cause := .fallbackCycle draft.body.name (passed ++ [reference.target]) }
      else
        .error
          { line := reference.line
            cause := .fallbackUnknown draft.body.name reference.target }
termination_by drafts.length

/-- The rule that a draft of a text becomes. -/
def link (drafts : List Draft) (draft : Draft) : Except ParseError Rule := do
  let fallbacks ← followFallbacks (without drafts draft.body.name) [] draft
  return Rule.ofBodies draft.body fallbacks

/-- The rules that the drafts of a text become. -/
def linkAll (drafts : List Draft) : Except ParseError (List Rule) :=
  drafts.mapM (link drafts)

end Draft

/-! ### Rules -/

/-- The rules that the lines of a text describe, in order. -/
def Rule.parse (catalog : Catalog) (firstHandle : Nat) (lines : List (List Char)) :
    Except ParseError (List Rule) := do
  let reading := Reading.ofLines lines
  let drafts ← reading.blocks.foldlM (Draft.addBlock catalog firstHandle) []
  let complete ← reading.finish drafts
  Draft.linkAll complete

end TickEconomy
