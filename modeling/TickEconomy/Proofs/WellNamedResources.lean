import TickEconomy.Proofs.LineGroups
import TickEconomy.Proofs.ResourceText
import TickEconomy.Rule.Parse
import TickEconomy.Scenario.Parse
import TickEconomy.Source

/-!
# Which resource texts are accepted

A resource text that is read without a fault is accepted when each of its blocks declares a resource
(`Block.DeclaresResource`) and no two of them give it a name in common, the names of blocks and
those of one unit taken together and without regard to case (`Block.AreWellNamed`). Blocks are added
one by one, and each is looked up against those before it in a catalog that is numbered, so what is
found there is a clash of two blocks (`Block.not_holds_resources_iff`). The resources are those that
the blocks declare, in order and with the names as they stand in the text, as no blanks are left
around these (`Block.isTrimmed_of_mem`).

A rule or a scenario text may be given a catalog or a plain list of resources, of which a catalog is
made first (`Listing`). With the resources of a text this makes no difference
(`Resource.parse_accepts_wellNamed`).
-/

set_option autoImplicit false
set_option relaxedAutoImplicit false

namespace TickEconomy

/-! ### What a block declares -/

/-- The text of the last of the directives with the name, or the given one where there is none. -/
def Directive.lastText (directives : List Directive) (name default : String) : String :=
  ((directives.reverse.find? fun directive ↦ directive.name = name).map
    Directive.argumentText).getD default

/-- The directive gives a name of one unit or of several. -/
structure Directive.GivesName (directive : Directive) : Prop where
  name : directive.name = "singular" ∨ directive.name = "plural"
  argumentText : directive.argumentText ≠ ""

namespace Block

/-- The name that the block gives to one unit: its own name unless a directive gives one. -/
def singular (block : Block) : String :=
  Directive.lastText block.directives "singular" block.name

/-- The name that the block gives to several units. -/
def plural (block : Block) : String :=
  Directive.lastText block.directives "plural" block.name

/-- The lower-case forms of the names that the resource of the block is looked up by. -/
def foldedNames (block : Block) : List String :=
  [Name.fold block.singular, Name.fold block.name]

/-- The block is of the right kind, has a name, and gives names only. -/
structure DeclaresResource (block : Block) : Prop where
  kind : block.kind = "resource"
  name : block.name ≠ ""
  directives : ∀ directive ∈ block.directives, directive.GivesName

/-- The resource that the block declares, under a given handle. -/
def resource (handle : Nat) (block : Block) : Resource :=
  { handle := handle, key := block.name, singular := block.singular, plural := block.plural }

/-- The resources that the blocks declare, numbered in order. -/
def resources (firstHandle : Nat) (blocks : List Block) : List Resource :=
  blocks.mapIdx fun index block ↦ block.resource (firstHandle + index)

/-- Each of the blocks declares a resource, and no two of them give it a name in common. -/
structure AreWellNamed (blocks : List Block) : Prop where
  declare : ∀ block ∈ blocks, block.DeclaresResource
  apart : blocks.Pairwise fun first second ↦ first.foldedNames.Disjoint second.foldedNames

/-- No blanks stand around the names and texts in the block. -/
structure IsTrimmed (block : Block) : Prop where
  name : Name.trim block.name = block.name
  directives : ∀ directive ∈ block.directives,
    Name.trim directive.argumentText = directive.argumentText

end Block

/-! ### Wordings -/

namespace Directive

theorem lastText_concat (directives : List Directive) (directive : Directive)
    (name default : String) :
    lastText (directives ++ [directive]) name default =
      if directive.name = name then directive.argumentText
      else lastText directives name default := by
  rw [lastText, List.reverse_append, List.reverse_singleton, List.singleton_append,
    List.find?_cons]
  by_cases hname : directive.name = name
  · simp [hname]
  · simp [hname, lastText]

/-- The last text is that of a directive, or the given one. -/
theorem lastText_cases (directives : List Directive) (name default : String) :
    lastText directives name default = default ∨
      ∃ directive ∈ directives, lastText directives name default = directive.argumentText := by
  unfold lastText
  cases hfound : directives.reverse.find? fun directive ↦ directive.name = name with
  | none => exact Or.inl rfl
  | some directive =>
    exact Or.inr ⟨directive, List.mem_reverse.1 (List.mem_of_find?_eq_some hfound), rfl⟩

end Directive

namespace Wording

/-- A directive is read when it gives a name, which then counts. -/
theorem read_eq_ok_iff {wording next : Wording} {directive : Directive} :
    wording.read directive = .ok next ↔ directive.GivesName ∧ next =
      { singular :=
          if directive.name = "singular" then directive.argumentText else wording.singular
        plural :=
          if directive.name = "plural" then directive.argumentText else wording.plural } := by
  rw [read]
  by_cases hname : directive.name ≠ "singular" ∧ directive.name ≠ "plural"
  · rw [if_pos hname]
    exact ⟨nofun, fun h ↦ absurd h.1.name (not_or.2 hname)⟩
  by_cases htext : directive.argumentText = ""
  · rw [if_neg hname, if_pos htext]
    exact ⟨nofun, fun h ↦ absurd htext h.1.argumentText⟩
  have hgives : directive.GivesName := ⟨not_and_or.1 hname |>.imp not_not.1 not_not.1, htext⟩
  rw [if_neg hname, if_neg htext, and_iff_right hgives, eq_comm]
  by_cases hsingular : directive.name = "singular"
  · simp [hsingular]
  · have hplural : directive.name = "plural" := hgives.name.resolve_left hsingular
    simp [hplural]

/-- Directives are read when each gives a name, of which the last of either kind counts. -/
theorem foldlM_read_eq_ok_iff (directives : List Directive) (start : Wording) {wording : Wording} :
    directives.foldlM read start = .ok wording ↔
      (∀ directive ∈ directives, directive.GivesName) ∧
        wording =
          { singular := Directive.lastText directives "singular" start.singular
            plural := Directive.lastText directives "plural" start.plural } := by
  induction directives using List.reverseRecOn generalizing wording with
  | nil =>
    rw [List.foldlM_nil]
    exact ⟨fun h ↦ ⟨List.forall_mem_nil _, (Except.ok.inj h).symm⟩, fun h ↦ by rw [h.2]; rfl⟩
  | append_singleton earlier directive ih =>
    rw [List.foldlM_append, bind_eq_ok_iff, List.forall_mem_append, List.forall_mem_singleton,
      Directive.lastText_concat, Directive.lastText_concat]
    simp only [List.foldlM_cons, List.foldlM_nil, bind_pure, read_eq_ok_iff, ih]
    constructor
    · rintro ⟨_, ⟨hearlier, rfl⟩, hlast, hwording⟩
      exact ⟨⟨hearlier, hlast⟩, hwording⟩
    · rintro ⟨⟨hearlier, hlast⟩, hwording⟩
      exact ⟨_, ⟨hearlier, rfl⟩, hlast, hwording⟩

end Wording

/-! ### Blocks of a text -/

/-- No blanks stand around what is read of a text. -/
theorem Block.isTrimmed_of_mem {lines : List (List Char)} {block : Block}
    (h : block ∈ (Reading.ofLines lines).blocks) : block.IsTrimmed := by
  obtain ⟨groups, hgroups⟩ := Reading.exists_groups_of_blocks lines
  rw [hgroups, List.mem_map] at h
  obtain ⟨group, -, rfl⟩ := h
  have htrim (line : SignificantLine) : Name.trim line.rest = line.rest := by
    rw [Name.trim, SignificantLine.rest, String.toList_ofList, Text.strip_afterFirstWord]
  refine ⟨htrim group.opener, fun directive hdirective ↦ ?_⟩
  obtain ⟨line, -, rfl⟩ := List.mem_map.1 hdirective
  exact htrim line

namespace Resource

/-- The resource of a block is what the block declares. -/
theorem ofBlock_eq_ok_iff {handle : Nat} {block : Block} (htrimmed : block.IsTrimmed)
    {resource : Resource} :
    ofBlock handle block = .ok resource ↔
      block.DeclaresResource ∧ resource = block.resource handle := by
  have hgiven (hname : block.name ≠ "") (hall : ∀ directive ∈ block.directives, directive.GivesName)
      (kind : String) :
      givenName (Name.trim block.name)
        (some (Directive.lastText block.directives kind block.name)) =
          Directive.lastText block.directives kind block.name := by
    obtain hdefault | ⟨directive, hmem, htext⟩ :=
      Directive.lastText_cases block.directives kind block.name
    · rw [hdefault, givenName, if_neg hname, htrimmed.name]
    · rw [htext, givenName, if_neg (hall directive hmem).argumentText,
        htrimmed.directives directive hmem]
  unfold ofBlock
  split_ifs with hkind hname
  · exact ⟨nofun, fun h ↦ absurd h.1.kind hkind⟩
  · exact ⟨nofun, fun h ↦ absurd hname h.1.name⟩
  · rw [bind_eq_ok_iff]
    simp only [Wording.ofBlock, Wording.foldlM_read_eq_ok_iff]
    constructor
    · rintro ⟨_, ⟨hall, rfl⟩, hresource⟩
      refine ⟨⟨not_not.1 hkind, hname, hall⟩, ?_⟩
      rw [← Except.ok.inj hresource, named, hgiven hname hall, hgiven hname hall, htrimmed.name]
      rfl
    · rintro ⟨hdeclares, rfl⟩
      refine ⟨_, ⟨hdeclares.directives, rfl⟩, ?_⟩
      rw [named, hgiven hname hdeclares.directives, hgiven hname hdeclares.directives,
        htrimmed.name]
      rfl

end Resource

/-! ### Adding blocks -/

namespace Catalog

/-- A resource whose handle is new is added when no other one has a name of it. -/
theorem Unambiguous.add_new_eq_ok_iff {catalog extended : Catalog} (h : catalog.Unambiguous)
    {resource : Resource} (hnew : ∀ other ∈ catalog.resources, other.handle ≠ resource.handle) :
    catalog.add resource = .ok extended ↔ ¬ catalog.Holds resource ∧
      extended = { resources := catalog.resources ++ [resource] } := by
  have hapart : catalog.TellsApart resource := fun other hother hsame ↦
    absurd hsame (hnew other hother)
  rw [add]
  obtain ⟨hmem, -⟩ | ⟨-, hheld, clash, hclash⟩ | ⟨-, hfree, hclash, hfound⟩ :=
    h.lookup_cases hapart
  · exact absurd rfl (hnew resource hmem)
  · rw [hclash]
    refine ⟨fun hok ↦ ?_, fun hok ↦ absurd hheld hok.1⟩
    cases hok
  · rw [hclash, hfound, and_iff_right hfree]
    exact ⟨fun hok ↦ (Except.ok.inj hok).symm, fun hextended ↦ by rw [hextended]⟩

/-- The resource of one more block is added when the block declares one and no other resource has a
name of it. -/
theorem IsNumbered.addBlock_eq_ok_iff {firstHandle : Nat} {catalog extended : Catalog}
    (h : catalog.IsNumbered firstHandle) {block : Block} (htrimmed : block.IsTrimmed) :
    Resource.addBlock firstHandle catalog block = .ok extended ↔
      block.DeclaresResource ∧
        ¬ catalog.Holds (block.resource (firstHandle + catalog.resources.length)) ∧
        extended = { resources := catalog.resources ++
          [block.resource (firstHandle + catalog.resources.length)] } := by
  have hnew : ∀ other ∈ catalog.resources,
      other.handle ≠ firstHandle + catalog.resources.length := by
    intro other hother
    have hhandle := List.mem_map_of_mem (f := Resource.handle) hother
    rw [h.handles, List.mem_range'_1] at hhandle
    omega
  rw [Resource.addBlock, bind_eq_ok_iff, ← h.unambiguous.add_new_eq_ok_iff hnew]
  simp only [Resource.ofBlock_eq_ok_iff htrimmed]
  constructor
  · rintro ⟨_, ⟨hdeclares, rfl⟩, hok⟩
    refine ⟨hdeclares, ?_⟩
    split at hok
    · cases hok
    · next hadded => rw [hadded, Except.ok.inj hok]
  · rintro ⟨hdeclares, hok⟩
    exact ⟨_, ⟨hdeclares, rfl⟩, by rw [hok]⟩

end Catalog

namespace Block

theorem resources_concat (firstHandle : Nat) (earlier : List Block) (block : Block) :
    resources firstHandle (earlier ++ [block]) =
      resources firstHandle earlier ++ [block.resource (firstHandle + earlier.length)] :=
  List.mapIdx_concat

theorem length_resources (firstHandle : Nat) (blocks : List Block) :
    (resources firstHandle blocks).length = blocks.length :=
  List.length_mapIdx

theorem areWellNamed_concat (earlier : List Block) (block : Block) :
    AreWellNamed (earlier ++ [block]) ↔ AreWellNamed earlier ∧ block.DeclaresResource ∧
      ∀ other ∈ earlier, other.foldedNames.Disjoint block.foldedNames := by
  constructor
  · rintro ⟨hdeclare, hapart⟩
    obtain ⟨hearlier, hlast⟩ := List.forall_mem_append.1 hdeclare
    obtain ⟨happartEarlier, -, hcross⟩ := List.pairwise_append.1 hapart
    exact ⟨⟨hearlier, happartEarlier⟩, List.forall_mem_singleton.1 hlast,
      fun other hother ↦ hcross other hother block List.mem_cons_self⟩
  · rintro ⟨⟨hdeclare, hapart⟩, hlast, hcross⟩
    refine ⟨List.forall_mem_append.2 ⟨hdeclare, List.forall_mem_singleton.2 hlast⟩,
      List.pairwise_append.2 ⟨hapart, List.pairwise_singleton _ _, fun other hother ↦ ?_⟩⟩
    exact List.forall_mem_singleton.2 (hcross other hother)

/-- A resource of earlier blocks has a name of that of a later block when one of these blocks gives
it. -/
theorem not_holds_resources_iff (firstHandle : Nat) (earlier : List Block) (block : Block) :
    ¬ Catalog.Holds { resources := resources firstHandle earlier }
        (block.resource (firstHandle + earlier.length)) ↔
      ∀ other ∈ earlier, other.foldedNames.Disjoint block.foldedNames := by
  constructor
  · intro hfree other hother folded hfirst hsecond
    obtain ⟨index, hindex, rfl⟩ := List.mem_iff_getElem.1 hother
    refine hfree ⟨_, List.mem_mapIdx.2 ⟨index, hindex, rfl⟩, fun hsame ↦ ?_, folded, hfirst,
      hsecond⟩
    have hhandle : firstHandle + index = firstHandle + earlier.length :=
      congrArg Resource.handle hsame
    omega
  · rintro hapart ⟨holder, hholder, -, folded, hfirst, hsecond⟩
    obtain ⟨index, hindex, rfl⟩ := List.mem_mapIdx.1 hholder
    exact hapart _ (List.getElem_mem hindex) hfirst hsecond

/-- Blocks make a catalog when they are well named, which is then that of the resources that they
declare. -/
theorem foldlM_addBlock_eq_ok_iff {blocks : List Block}
    (htrimmed : ∀ block ∈ blocks, block.IsTrimmed) (firstHandle : Nat) {catalog : Catalog} :
    blocks.foldlM (Resource.addBlock firstHandle) {} = .ok catalog ↔
      AreWellNamed blocks ∧ catalog = { resources := resources firstHandle blocks } := by
  induction blocks using List.reverseRecOn generalizing catalog with
  | nil =>
    rw [List.foldlM_nil]
    exact ⟨fun h ↦ ⟨⟨List.forall_mem_nil _, List.Pairwise.nil⟩, (Except.ok.inj h).symm⟩,
      fun h ↦ by rw [h.2]; rfl⟩
  | append_singleton earlier block ih =>
    obtain ⟨hearlier, hblock⟩ := List.forall_mem_append.1 htrimmed
    have hadd (hmiddle : earlier.foldlM (Resource.addBlock firstHandle) {} =
        .ok { resources := resources firstHandle earlier }) :
        Resource.addBlock firstHandle { resources := resources firstHandle earlier } block =
            .ok catalog ↔
          block.DeclaresResource ∧
            (∀ other ∈ earlier, other.foldedNames.Disjoint block.foldedNames) ∧
            catalog = { resources := resources firstHandle (earlier ++ [block]) } := by
      have hnumbered := Catalog.isNumbered_of_foldlM hmiddle
      rw [hnumbered.addBlock_eq_ok_iff (List.forall_mem_singleton.1 hblock), resources_concat,
        length_resources, not_holds_resources_iff]
    rw [List.foldlM_append, bind_eq_ok_iff, areWellNamed_concat]
    simp only [List.foldlM_cons, List.foldlM_nil, bind_pure]
    constructor
    · rintro ⟨middle, hmiddle, hlast⟩
      obtain ⟨hwell, rfl⟩ := (ih hearlier).1 hmiddle
      obtain ⟨hdeclares, hapart, hcatalog⟩ := (hadd hmiddle).1 hlast
      exact ⟨⟨hwell, hdeclares, hapart⟩, hcatalog⟩
    · rintro ⟨⟨hwell, hdeclares, hapart⟩, hcatalog⟩
      have hmiddle : earlier.foldlM (Resource.addBlock firstHandle) {} =
          .ok { resources := resources firstHandle earlier } := (ih hearlier).2 ⟨hwell, rfl⟩
      exact ⟨_, hmiddle, (hadd hmiddle).2 ⟨hdeclares, hapart, hcatalog⟩⟩

end Block

/-! ### Plain lists of resources -/

/-- How the resources that a text may speak of are given. -/
inductive Listing
  | catalog (known : Catalog)
  /-- A plain list, of which a catalog is made first. -/
  | plain (resources : List Resource)

/-- Why a text has no result with a listing. -/
inductive ListingError
  /-- The list makes no catalog. -/
  | catalogRefused (clash : NameClash)
  | refused (error : SourceError)

/-- The catalog of a listing. -/
def Listing.toCatalog : Listing → Except NameClash Catalog
  | .catalog known => .ok known
  | .plain resources => Catalog.ofList resources

/-- What a source comes to with the resources of a listing. -/
def SourceText.parseListed {Result : Type} (text : SourceText) (listing : Listing)
    (parseLines : Catalog → List (List Char) → Except ParseError Result) :
    Except ListingError Result :=
  match listing.toCatalog with
  | .error clash => .error (.catalogRefused clash)
  | .ok catalog => (text.parse (parseLines catalog)).mapError .refused

/-! ### Texts -/

namespace Resource

/-- A text without a fault is parsed when its blocks are well named. -/
theorem parse_eq_ok_iff (firstHandle : Nat) {lines : List (List Char)}
    (hscans : (Reading.ofLines lines).fault = none) {found : List Resource} :
    parse firstHandle lines = .ok found ↔ Block.AreWellNamed (Reading.ofLines lines).blocks ∧
      found = Block.resources firstHandle (Reading.ofLines lines).blocks := by
  rw [parse, bind_eq_ok_iff]
  simp only [Block.foldlM_addBlock_eq_ok_iff (fun _ ↦ Block.isTrimmed_of_mem),
    Reading.finish_eq_ok_iff, and_iff_right hscans]
  constructor
  · rintro ⟨_, ⟨hwell, rfl⟩, rfl⟩
    exact ⟨hwell, rfl⟩
  · rintro ⟨hwell, rfl⟩
    exact ⟨_, ⟨hwell, rfl⟩, rfl⟩

/-- A text that is read without a fault is parsed just when its blocks are well named. The result is
the resources that the blocks declare, which make a catalog as they stand. So rule and scenario
texts come to the same with this list as with its catalog. -/
theorem parse_accepts_wellNamed (firstHandle : Nat) {lines : List (List Char)}
    (hscans : (Reading.ofLines lines).fault = none) :
    let blocks := (Reading.ofLines lines).blocks
    ((∃ found, parse firstHandle lines = .ok found) ↔ Block.AreWellNamed blocks) ∧
      ∀ found, parse firstHandle lines = .ok found →
        found = Block.resources firstHandle blocks ∧
          Catalog.ofList found = .ok { resources := found } ∧
          ∀ text : SourceText,
            (∀ firstRule,
              text.parseListed (.plain found) (fun known ↦ Rule.parse known firstRule) =
                text.parseListed (.catalog { resources := found })
                  fun known ↦ Rule.parse known firstRule) ∧
            ∀ rules,
              text.parseListed (.plain found) (fun known ↦ Scenario.parse known rules) =
                text.parseListed (.catalog { resources := found })
                  fun known ↦ Scenario.parse known rules := by
  intro blocks
  refine ⟨⟨?_, fun hwell ↦ ⟨_, (parse_eq_ok_iff firstHandle hscans).2 ⟨hwell, rfl⟩⟩⟩, ?_⟩
  · rintro ⟨found, hfound⟩
    exact ((parse_eq_ok_iff firstHandle hscans).1 hfound).1
  · intro found hfound
    have hcatalog := ofList_of_parse hfound
    have hlisting : (Listing.plain found).toCatalog =
        (Listing.catalog { resources := found }).toCatalog := hcatalog
    refine ⟨((parse_eq_ok_iff firstHandle hscans).1 hfound).2, hcatalog, fun text ↦ ?_⟩
    simp only [SourceText.parseListed, hlisting, implies_true, and_self]

/-- The last name of one unit counts, with the blanks inside it; the wood has one name only. -/
theorem parse_accepts_wellNamed_ore :
    let lines : List (List Char) :=
      ["resource Iron Ore", "singular ingot", "plural bars", " singular  Iron  Bar ", "end", "",
        "resource wood", "end"].map String.toList
    let ore : Resource :=
      { handle := 1, key := "Iron Ore", singular := "Iron  Bar", plural := "bars" }
    let wood : Resource := { handle := 2, key := "wood", singular := "wood", plural := "wood" }
    parse 1 lines = .ok [ore, wood] ∧ Block.AreWellNamed (Reading.ofLines lines).blocks ∧
      Catalog.ofList [ore, wood] = .ok { resources := [ore, wood] } := by
  intro lines ore wood
  have hscans : (Reading.ofLines lines).fault = none := by decide +kernel
  have hparse : parse 1 lines = .ok [ore, wood] := by decide +kernel
  obtain ⟨haccepts, hresult⟩ := parse_accepts_wellNamed 1 hscans
  exact ⟨hparse, haccepts.1 ⟨_, hparse⟩, (hresult _ hparse).2.1⟩

end Resource

end TickEconomy
