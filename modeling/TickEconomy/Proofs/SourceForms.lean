import TickEconomy.Proofs.LineWords
import TickEconomy.Proofs.StartingHandles

/-!
# Texts in memory and in files

A text in memory is cut into lines at more characters than a file is (`Text.memoryLineEnds`). A text
that has none of these is cut alike in both forms, whatever its line ends are and whether or not it
closes with one (`Text.cutLines_congr`), and its bytes are decoded to the text itself. A file may
also be read line by line, each line with its end, which is a line feed by then
(`Text.fileLines`). The line feed is a blank, so these lines have the same statements
(`Reading.ofLines_fileLines`).

Lines with the same statements parse alike (`Source.ParsesAlike.of_reading_eq`), and so a text and a
file that holds it come to the same resources, rules and scenario up to handles, or to the same
error in the same line (`Source.text_parsesAlike_file`).
-/

set_option autoImplicit false
set_option relaxedAutoImplicit false

namespace TickEconomy

namespace Text

/-! ### Line ends -/

/-- The characters that end a line of a text in memory, but not of a file. -/
def memoryLineEnds : List Char :=
  ['\x0b', '\x0c', '\x1c', '\x1d', '\x1e', '\x85', '\u2028', '\u2029']

/-- A text in memory is cut where a file is, and at some further characters. -/
theorem endsTextLine_iff (character : Char) :
    endsTextLine character = true ↔
      endsFileLine character = true ∨ character ∈ memoryLineEnds := by
  simp only [endsTextLine, endsFileLine, memoryLineEnds, Bool.or_eq_true, Bool.and_eq_true,
    decide_eq_true_eq, beq_iff_eq, List.mem_cons, List.not_mem_nil, or_false, ← Char.toNat_inj,
    Char.reduceToNat]
  omega

/-- A text is cut alike by classes that agree on its characters. -/
theorem cutLines_congr {first second : Char → Bool} {text : List Char}
    (h : ∀ character ∈ text, first character = second character) :
    cutLines first text = cutLines second text := by
  induction text using cutLines.induct first with
  | case1 => rfl
  | case2 rest ih =>
    rw [cutLines, cutLines, ih fun character hcharacter ↦ h character (by simp [hcharacter])]
  | case3 character rest hreturn _ ih | case4 character rest hreturn _ _ ih
  | case5 character rest hreturn _ _ _ _ ih =>
    obtain ⟨hcharacter, hrest⟩ := List.forall_mem_cons.1 h
    rw [cutLines_cons hreturn, cutLines_cons hreturn, hcharacter, ih hrest]

/-! ### Lines with their ends -/

/-- The lines of a text whose line ends are line feeds, each with the line feed that ends it. -/
def fileLines : List Char → List (List Char)
  | [] => []
  | character :: rest =>
    if character = '\n' then ['\n'] :: fileLines rest
    else
      match fileLines rest with
      | [] => [[character]]
      | line :: later => (character :: line) :: later

/-- The lines of a file, read one by one with their ends, are its lines as they are cut, of which
all but perhaps the last have a line feed behind them. -/
theorem forall₂_fileLines (text : List Char) :
    List.Forall₂ (fun line cut ↦ line = cut ∨ line = cut ++ ['\n'])
      (fileLines (unifyLineEnds text)) (cutLines endsFileLine text) := by
  induction text using unifyLineEnds.induct with
  | case1 => exact List.Forall₂.nil
  | case2 rest ih =>
    rw [unifyLineEnds, cutLines]
    exact List.Forall₂.cons (.inr rfl) ih
  | case3 rest hfeed ih =>
    rw [unifyLineEnds, cutLines_cons fun later _ ↦ hfeed later]
    · exact List.Forall₂.cons (.inr rfl) ih
    · exact hfeed
  | case4 character rest hfeed hreturn ih =>
    rw [unifyLineEnds, cutLines_cons hfeed]
    · by_cases hcharacter : character = '\n'
      · subst hcharacter
        exact List.Forall₂.cons (.inr rfl) ih
      · have hends : endsFileLine character = false := by
          simp only [endsFileLine, Bool.or_eq_false_iff, beq_eq_false_iff_ne]
          exact ⟨hcharacter, hreturn⟩
        simp only [fileLines, hcharacter, if_false, hends]
        generalize fileLines (unifyLineEnds rest) = lines at ih ⊢
        generalize cutLines endsFileLine rest = cuts at ih ⊢
        cases ih with
        | nil => exact List.Forall₂.cons (.inl rfl) List.Forall₂.nil
        | cons hline hlater =>
          exact List.Forall₂.cons (hline.imp (congrArg _) (congrArg _)) hlater
    · exact hfeed
    · exact hreturn

end Text

/-! ### Readings -/

namespace Statement

/-- A line is the statement that it is without the blanks around it. -/
theorem ofLine?_congr {line other : List Char} (h : Text.strip line = Text.strip other)
    (number : Nat) : ofLine? number line = ofLine? number other := by
  unfold ofLine?
  rw [h]

/-- Lines that match without the blanks around them are the same statements. -/
theorem ofLinesFrom_congr {lines others : List (List Char)}
    (h : List.Forall₂ (fun line other ↦ Text.strip line = Text.strip other) lines others)
    (number : Nat) : ofLinesFrom number lines = ofLinesFrom number others := by
  induction h generalizing number with
  | nil => rfl
  | cons hline _ ih => rw [ofLinesFrom, ofLinesFrom, ofLine?_congr hline, ih]

end Statement

/-- The lines of a file have the same blocks with their ends as without. -/
theorem Reading.ofLines_fileLines (text : List Char) :
    ofLines (Text.fileLines (Text.unifyLineEnds text)) =
      ofLines (Text.cutLines Text.endsFileLine text) := by
  refine congrArg (ofStatementsFrom none) (Statement.ofLinesFrom_congr ?_ 1)
  refine (Text.forall₂_fileLines text).imp ?_
  rintro line cut (rfl | rfl)
  · rfl
  · exact Text.strip_append_blanks (List.forall_mem_singleton.2 (by decide)) cut

/-! ### Sources that parse alike -/

/-- Rules numbered from the second handle on instead of from the first one on. -/
def Renumbering.restartRules (first second : Nat) : Renumbering where
  resource := id
  rule handle := second + (handle - first)

/-- The two sources come to the same as a resource, a rule or a scenario text: to results that are
equal up to the handles that are given out, or to the same error. -/
structure Source.ParsesAlike (source other : Source) : Prop where
  resources : ∀ first second, other.read.parse (Resource.parse second) =
    List.map (Resource.renumbered (.restart first second)) <$>
      source.read.parse (Resource.parse first)
  rules : ∀ catalog first second, other.read.parse (Rule.parse catalog second) =
    List.map (Rule.renumbered (.restartRules first second)) <$>
      source.read.parse (Rule.parse catalog first)
  scenario : ∀ catalog rules, other.read.parse (Scenario.parse catalog rules) =
    source.read.parse (Scenario.parse catalog rules)

/-- Rules are numbered from another handle on over the same catalog. -/
theorem Rule.parse_restartRules (catalog : Catalog) (first second : Nat)
    (lines : List (List Char)) :
    parse catalog second lines =
      List.map (Rule.renumbered (.restartRules first second)) <$> parse catalog first lines := by
  have hcatalog : catalog.renumbered (.restartRules first second) = catalog :=
    congrArg Catalog.mk (List.map_id'' (fun _ ↦ rfl) catalog.resources)
  have hcount (count : Nat) :
      (Renumbering.restartRules first second).rule (first + count) = second + count := by
    simp only [Renumbering.restartRules]
    omega
  have hrules := parse_renumbered hcount catalog lines
  rwa [hcatalog] at hrules

/-- Sources that come to the same from the same lines come to the same. -/
theorem SourceText.parse_congr {Result : Type} {text other : SourceText}
    {parseLines : List (List Char) → Except ParseError Result}
    (hwhole : text.isWhole = other.isWhole)
    (hlines : parseLines text.lines = parseLines other.lines) :
    text.parse parseLines = other.parse parseLines := by
  rw [parse, parse, hlines]
  unfold settle
  rw [hwhole]

/-- Sources that are read whole, with the same blocks and the same fault, parse alike. -/
theorem Source.ParsesAlike.of_reading_eq {source other : Source}
    (hwhole : other.read.isWhole = source.read.isWhole)
    (hreading : Reading.ofLines other.read.lines = Reading.ofLines source.read.lines) :
    source.ParsesAlike other where
  resources first second := by
    rw [← Resource.parse_restart]
    refine SourceText.parse_congr hwhole ?_
    rw [Resource.parse_eq_dialect, Dialect.parse_congr hreading]
  rules catalog first second := by
    rw [← SourceText.parse_map _ (Rule.parse_restartRules catalog first second)]
    refine SourceText.parse_congr hwhole ?_
    rw [Rule.parse_eq_dialect, Dialect.parse_congr hreading]
  scenario catalog rules := by
    refine SourceText.parse_congr hwhole ?_
    rw [Scenario.parse_eq_dialect, Dialect.parse_congr hreading]

/-- A text without the characters at which lines end in memory only comes to the same in memory as
in a file that holds its bytes, whatever its line ends are, and so do the lines of the file when
they are read one by one with their ends. -/
theorem Source.text_parsesAlike_file (text : String)
    (h : ∀ character ∈ text.toList, character ∉ Text.memoryLineEnds) :
    (Source.text text).ParsesAlike (.file text.toUTF8) ∧
      (Source.text text).ParsesAlike
        (.lines ((Text.fileLines (Text.unifyLineEnds text.toList)).map String.ofList)) := by
  have hlines : Text.cutLines Text.endsTextLine text.toList =
      Text.cutLines Text.endsFileLine text.toList := by
    refine Text.cutLines_congr fun character hcharacter ↦ Bool.eq_iff_iff.2 ?_
    rw [Text.endsTextLine_iff, or_iff_left (h character hcharacter)]
  have hfile : (Source.file text.toUTF8).read =
      { lines := Text.cutLines Text.endsFileLine text.toList, isWhole := true } := by
    rw [read, Text.decodeUtf8?_toUTF8]
  constructor
  · refine .of_reading_eq ?_ ?_
    · rw [hfile]
      rfl
    · rw [hfile, read, hlines]
  · refine .of_reading_eq rfl ?_
    rw [read, read, hlines, ← Reading.ofLines_fileLines, List.map_map]
    simp

/-- Carriage returns, line feeds, and a line feed before a carriage return, in one text. -/
theorem Source.text_parsesAlike_file_mixed :
    let text := "resource grain\r\n\r\n\n\r# a comment\rsingular kernel\n\r\rend"
    let grain : Resource :=
      { handle := 5, key := "grain", singular := "kernel", plural := "grain" }
    (Source.file text.toUTF8).read.parse (Resource.parse 5) = .ok [grain] := by
  intro text grain
  have hplain : ∀ character ∈ text.toList, character ∉ Text.memoryLineEnds := by
    simp [text, Text.memoryLineEnds]
  rw [(text_parsesAlike_file text hplain).1.resources 2 5]
  decide +kernel

end TickEconomy
