import TickEconomy.Proofs.RuleBlock
import TickEconomy.Proofs.WrittenBlocks

/-!
# Writing clauses

A clause is written as the words of a directive (`Clause.Spelling`). A pool is spelled by its
relation and a word for the resource; the relation `self` may be left out, so a clause that names a
pool has two spellings then, one a word longer than the other (`PoolReference.Spelling`). Numbers
are written in decimal, as far as their digits are within the limit on numerals
(`Text.FitsNumeral`).

Every spelling is a line of a block (`Clause.Spelling.isDirective`) and reads as the clause that it
spells (`Clause.Spelling.ofDirective_eq_ok`). A clause has one when the resource has a word to refer
to it, the relation is a word in lower case, the comparison has a sign and the numbers fit
(`Clause.exists_spelling`).
-/

set_option autoImplicit false
set_option relaxedAutoImplicit false

namespace TickEconomy

/-! ### Spellings -/

/-- The words spell the pool. -/
inductive PoolReference.Spelling (catalog : Catalog) (pool : PoolReference) : List String → Prop
  /-- The relation `self` is left out. -/
  | plain {word : String} (hrelation : pool.relation = selfRelation)
      (hword : Text.IsWord word.toList) (hfind : catalog.find? word = some pool.resource) :
      Spelling catalog pool [word]
  /-- The relation stands before the resource. -/
  | related {word : String} (hrelation : Text.IsWord pool.relation.toList)
      (hfold : Name.fold pool.relation = pool.relation) (hword : Text.IsWord word.toList)
      (hfind : catalog.find? word = some pool.resource) :
      Spelling catalog pool [pool.relation, word]

/-- The pool of a specifier. -/
def Specifier.pool (specifier : Specifier) : PoolReference where
  relation := specifier.relation
  resource := specifier.resource

/-- The words spell the specifier: the quantity stands behind the pool. -/
def Specifier.Spelling (catalog : Catalog) (specifier : Specifier) (words : List String) : Prop :=
  ∃ poolWords, specifier.pool.Spelling catalog poolWords ∧
    Text.FitsNumeral specifier.quantity ∧ words = poolWords ++ [Text.numeral specifier.quantity]

/-- The words spell the condition: a sign and the quantity stand behind the pool. -/
def Condition.Spelling (catalog : Catalog) (demand : Condition) (words : List String) : Prop :=
  ∃ poolWords, demand.pool.Spelling catalog poolWords ∧
    (∀ code, demand.comparison ≠ .unknown code) ∧ Text.FitsNumeral demand.quantity ∧
    words = poolWords ++ [demand.comparison.sign, Text.numeral demand.quantity]

/-- The words spell the clause. -/
inductive Clause.Spelling (catalog : Catalog) : Clause → List String → Prop
  | input {specifier : Specifier} {words : List String}
      (hwords : specifier.Spelling catalog words) :
      Spelling catalog (.input specifier) ("in" :: words)
  | output {specifier : Specifier} {words : List String}
      (hwords : specifier.Spelling catalog words) :
      Spelling catalog (.output specifier) ("out" :: words)
  | set {specifier : Specifier} {words : List String}
      (hwords : specifier.Spelling catalog words) :
      Spelling catalog (.set specifier) ("set" :: words)
  | condition {demand : Condition} {words : List String} (hwords : demand.Spelling catalog words) :
      Spelling catalog (.condition demand) ("if" :: words)
  | period {ticks : Nat} (hticks : Text.FitsNumeral ticks) :
      Spelling catalog (.period ticks) ["every", Text.numeral ticks]
  | extraRounds {count : Nat} (hcount : Text.FitsNumeral count) :
      Spelling catalog (.extraRounds count) ["repeat", Text.numeral count]
  | repeatFrom {pool : PoolReference} {words : List String} (hwords : pool.Spelling catalog words) :
      Spelling catalog (.repeatFrom pool) ("repeat" :: "using" :: words)
  | fallback {target : String} (htarget : Text.IsWord target.toList) :
      Spelling catalog (.fallback target) ["onfail", target]

/-! ### Words of spellings -/

theorem Text.isWord_numeral (number : Int) : Text.IsWord (Text.numeral number).toList := by
  rw [Text.numeral, String.toList_ofList]
  exact Text.isWord_writeInteger number

theorem Comparison.isWord_sign (comparison : Comparison) :
    Text.IsWord comparison.sign.toList := by
  cases comparison with
  | unknown code => exact (by decide : Text.IsWord "?".toList)
  | _ => decide

theorem PoolReference.Spelling.isWord {catalog : Catalog} {pool : PoolReference}
    {words : List String} (h : pool.Spelling catalog words) :
    ∀ word ∈ words, Text.IsWord word.toList := by
  cases h with
  | plain hrelation hword hfind => simpa using hword
  | related hrelation hfold hword hfind => simpa using ⟨hrelation, hword⟩

theorem Specifier.Spelling.isWord {catalog : Catalog} {specifier : Specifier}
    {words : List String} (h : specifier.Spelling catalog words) :
    ∀ word ∈ words, Text.IsWord word.toList := by
  obtain ⟨poolWords, hpool, -, rfl⟩ := h
  exact List.forall_mem_append.2 ⟨hpool.isWord, by simpa using Text.isWord_numeral _⟩

theorem Condition.Spelling.isWord {catalog : Catalog} {demand : Condition}
    {words : List String} (h : demand.Spelling catalog words) :
    ∀ word ∈ words, Text.IsWord word.toList := by
  obtain ⟨poolWords, hpool, -, -, rfl⟩ := h
  refine List.forall_mem_append.2 ⟨hpool.isWord, ?_⟩
  simpa using ⟨demand.comparison.isWord_sign, Text.isWord_numeral _⟩

/-! ### Reading arguments -/

namespace Directive

variable (directive : Directive) {catalog : Catalog}

theorem integer_numeral (what : String) {number : Int} (h : Text.FitsNumeral number) :
    directive.integer what (Text.numeral number) = .ok number := by
  rw [integer, Text.numeral, String.toList_ofList, Text.readInteger?_writeInteger h]

theorem count_numeral (what : String) {number : Nat} (h : Text.FitsNumeral number) :
    directive.count what (Text.numeral number) = .ok number := by
  rw [count, directive.integer_numeral what h]
  rfl

theorem resource_eq_ok {word : String} {resource : Resource}
    (h : catalog.find? word = some resource) : directive.resource catalog word = .ok resource := by
  rw [Directive.resource, h]

end Directive

/-- The sign of a comparison stands for it. -/
theorem Comparison.ofSign_sign {comparison : Comparison}
    (h : ∀ code, comparison ≠ .unknown code) : ofSign comparison.sign = comparison := by
  cases comparison with
  | unknown code => exact absurd rfl (h code)
  | _ => rfl

namespace Clause

variable {catalog : Catalog} {directive : Directive}

theorem specifierOf_eq_ok {word : String} {resource : Resource}
    (hfind : catalog.find? word = some resource) {quantity : Int}
    (hquantity : Text.FitsNumeral quantity) (relation : String) :
    specifierOf catalog directive relation word (Text.numeral quantity) =
      .ok { relation := relation, resource := resource, quantity := quantity } := by
  rw [specifierOf, directive.resource_eq_ok hfind, directive.integer_numeral _ hquantity]
  rfl

/-- The arguments that spell a specifier are read as it. -/
theorem readSpecifier_eq_ok {specifier : Specifier}
    (h : specifier.Spelling catalog directive.arguments) :
    readSpecifier catalog directive = .ok specifier := by
  obtain ⟨poolWords, hpool, hquantity, harguments⟩ := h
  unfold readSpecifier
  rw [harguments]
  cases hpool with
  | plain hrelation hword hfind =>
    refine (specifierOf_eq_ok hfind hquantity selfRelation).trans ?_
    rw [← hrelation]
    rfl
  | related hrelation hfold hword hfind =>
    refine (specifierOf_eq_ok hfind hquantity _).trans ?_
    rw [hfold]
    rfl

theorem conditionOf_eq_ok {word : String} {resource : Resource}
    (hfind : catalog.find? word = some resource) {comparison : Comparison}
    (hcomparison : ∀ code, comparison ≠ .unknown code) {quantity : Int}
    (hquantity : Text.FitsNumeral quantity) (relation : String) :
    conditionOf catalog directive relation word comparison.sign (Text.numeral quantity) =
      .ok { relation := relation, resource := resource, quantity := quantity,
            comparison := comparison } := by
  have hsign : comparisonOf directive comparison.sign = .ok comparison := by
    rw [comparisonOf, Comparison.ofSign_sign hcomparison]
    cases comparison with
    | unknown code => exact absurd rfl (hcomparison code)
    | _ => rfl
  rw [conditionOf, directive.resource_eq_ok hfind, hsign, directive.integer_numeral _ hquantity]
  rfl

/-- The arguments that spell a condition are read as it. -/
theorem readCondition_eq_ok {demand : Condition}
    (h : demand.Spelling catalog directive.arguments) :
    readCondition catalog directive = .ok demand := by
  obtain ⟨poolWords, hpool, hcomparison, hquantity, harguments⟩ := h
  unfold readCondition
  rw [harguments]
  cases hpool with
  | plain hrelation hword hfind =>
    refine (conditionOf_eq_ok hfind hcomparison hquantity selfRelation).trans ?_
    rw [← hrelation]
    rfl
  | related hrelation hfold hword hfind =>
    refine (conditionOf_eq_ok hfind hcomparison hquantity _).trans ?_
    rw [hfold]
    rfl

/-- The arguments that spell a pool behind the word `using` are read as the source of the number of
rounds. -/
theorem readRepetition_eq_ok {pool : PoolReference} {words : List String}
    (h : pool.Spelling catalog words) (harguments : directive.arguments = "using" :: words) :
    readRepetition catalog directive = .ok (.repeatFrom pool) := by
  have hread : ∀ relation word, catalog.find? word = some pool.resource →
      repeatFromOf catalog directive "using" relation word =
        .ok (.repeatFrom { relation := relation, resource := pool.resource }) := by
    intro relation word hfind
    rw [repeatFromOf, if_pos rfl, directive.resource_eq_ok hfind]
    rfl
  unfold readRepetition
  rw [harguments]
  cases h with
  | plain hrelation hword hfind =>
    refine (hread selfRelation _ hfind).trans ?_
    rw [← hrelation]
  | related hrelation hfold hword hfind =>
    refine (hread _ _ hfind).trans ?_
    rw [hfold]

namespace Spelling

variable {clause : Clause} {words : List String}

/-- A directive with the words of a spelling reads as the clause that it spells. -/
theorem ofDirective_eq_ok (h : clause.Spelling catalog words)
    (hwords : directive.name :: directive.arguments = words) :
    Clause.ofDirective catalog directive = .ok clause := by
  obtain ⟨name, argumentText, arguments, line⟩ := directive
  subst hwords
  unfold ofDirective
  cases h with
  | input hspecifier => exact congrArg (Clause.input <$> ·) (readSpecifier_eq_ok hspecifier)
  | output hspecifier => exact congrArg (Clause.output <$> ·) (readSpecifier_eq_ok hspecifier)
  | set hspecifier => exact congrArg (Clause.set <$> ·) (readSpecifier_eq_ok hspecifier)
  | condition hdemand => exact congrArg (Clause.condition <$> ·) (readCondition_eq_ok hdemand)
  | period hticks =>
    exact congrArg (Clause.period <$> ·) (Directive.count_numeral _ "period" hticks)
  | extraRounds hcount =>
    exact congrArg (Clause.extraRounds <$> ·) (Directive.count_numeral _ "repeat" hcount)
  | repeatFrom hpool => exact readRepetition_eq_ok hpool rfl
  | fallback htarget => rfl

/-- A spelling is a line of a block. -/
theorem isDirective (h : clause.Spelling catalog words) : BlockContent.IsDirective words := by
  cases h with
  | input hspecifier | output hspecifier | set hspecifier =>
    exact BlockContent.isDirective_cons (by decide) (by decide) hspecifier.isWord
  | condition hdemand =>
    exact BlockContent.isDirective_cons (by decide) (by decide) hdemand.isWord
  | period | extraRounds =>
    refine BlockContent.isDirective_cons (by decide) (by decide) ?_
    simpa using Text.isWord_numeral _
  | repeatFrom hpool =>
    refine BlockContent.isDirective_cons (by decide) (by decide) ?_
    exact List.forall_mem_cons.2 ⟨by decide, hpool.isWord⟩
  | fallback htarget =>
    exact BlockContent.isDirective_cons (by decide) (by decide) (by simpa using htarget)

end Spelling

end Clause

/-! ### What can be spelled -/

/-- There is a word to refer to the resource by, and the relation is a word in lower case. -/
structure PoolReference.IsWritable (catalog : Catalog) (pool : PoolReference) : Prop where
  relation : Text.IsWord pool.relation.toList
  fold_relation : Name.fold pool.relation = pool.relation
  resource : ∃ word : String, Text.IsWord word.toList ∧ catalog.find? word = some pool.resource

/-- The pool can be written, and the quantity fits a numeral. -/
structure Specifier.IsWritable (catalog : Catalog) (specifier : Specifier) : Prop where
  pool : specifier.pool.IsWritable catalog
  quantity : Text.FitsNumeral specifier.quantity

/-- The specifier can be written, and the comparison has a meaning. -/
structure Condition.IsWritable (catalog : Catalog) (demand : Condition) : Prop where
  specifier : demand.toSpecifier.IsWritable catalog
  comparison : ∀ code, demand.comparison ≠ .unknown code

/-- What the clause says can be written. -/
def Clause.IsWritable (catalog : Catalog) : Clause → Prop
  | .input specifier | .output specifier | .set specifier => specifier.IsWritable catalog
  | .condition demand => demand.IsWritable catalog
  | .period number | .extraRounds number => Text.FitsNumeral number
  | .repeatFrom pool => pool.IsWritable catalog
  | .fallback target => Text.IsWord target.toList

theorem PoolReference.exists_spelling {catalog : Catalog} {pool : PoolReference}
    (h : pool.IsWritable catalog) : ∃ words, pool.Spelling catalog words := by
  obtain ⟨word, hword, hfind⟩ := h.resource
  exact ⟨_, .related h.relation h.fold_relation hword hfind⟩

theorem Specifier.exists_spelling {catalog : Catalog} {specifier : Specifier}
    (h : specifier.IsWritable catalog) : ∃ words, specifier.Spelling catalog words := by
  obtain ⟨words, hwords⟩ := PoolReference.exists_spelling h.pool
  exact ⟨_, words, hwords, h.quantity, rfl⟩

/-- A clause that can be written has a spelling. -/
theorem Clause.exists_spelling {catalog : Catalog} {clause : Clause}
    (h : clause.IsWritable catalog) : ∃ words, clause.Spelling catalog words := by
  cases clause with
  | input specifier =>
    obtain ⟨words, hwords⟩ := Specifier.exists_spelling h
    exact ⟨_, .input hwords⟩
  | output specifier =>
    obtain ⟨words, hwords⟩ := Specifier.exists_spelling h
    exact ⟨_, .output hwords⟩
  | set specifier =>
    obtain ⟨words, hwords⟩ := Specifier.exists_spelling h
    exact ⟨_, .set hwords⟩
  | condition demand =>
    obtain ⟨words, hwords⟩ := PoolReference.exists_spelling h.specifier.pool
    exact ⟨_, .condition ⟨words, hwords, h.comparison, h.specifier.quantity, rfl⟩⟩
  | period ticks => exact ⟨_, .period h⟩
  | extraRounds count => exact ⟨_, .extraRounds h⟩
  | repeatFrom pool =>
    obtain ⟨words, hwords⟩ := PoolReference.exists_spelling h
    exact ⟨_, .repeatFrom hwords⟩
  | fallback target => exact ⟨_, .fallback h⟩

end TickEconomy
