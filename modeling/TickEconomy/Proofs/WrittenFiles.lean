import Mathlib.Tactic.IntervalCases
import TickEconomy.Directory
import TickEconomy.Manual

/-!
# Files that are read again

What a run writes is read back. The bytes of a text are those of its characters, and the reader,
which takes any bytes, goes through an unfinished character and gives each of them again: what
the bytes read so far have of its code is the code without as many times six bits as bytes are left
(`Text.decodeBytes_laterBytes`). So it gives the text (`Text.decodeUtf8Leniently_toUTF8`), and if
that has no carriage returns, its line ends stay as they are (`Manual.textOf_toUTF8`).

In a directory a file is written at the place that its path names, where it is found by every path
that names the place; the other files stay as they are
(`Directory.write_eq_self_or_contents_write`). Writing a file again with what it holds changes
nothing (`Directory.write_eq_self`).
-/

set_option autoImplicit false
set_option relaxedAutoImplicit false

namespace TickEconomy

namespace Text

/-! ### Bytes of a text -/

/-- The last bytes of a character with the code, each of which gives six of its bits. -/
def laterBytes (code : Nat) : Nat → List UInt8
  | 0 => []
  | count + 1 => UInt8.ofNat (code / 64 ^ count % 64 + 128) :: laterBytes code count

theorem toNat_ofNat {byte : Nat} (h : byte < 256) : (UInt8.ofNat byte).toNat = byte :=
  UInt8.toNat_ofNat_of_lt h

theorem toNat_laterByte (code count : Nat) :
    (UInt8.ofNat (code / 64 ^ count % 64 + 128)).toNat = code / 64 ^ count % 64 + 128 :=
  toNat_ofNat (Nat.add_lt_add_right
    ((Nat.mod_lt _ (by decide : 0 < 64)).trans (by decide : 64 < 128)) 128)

/-- An unfinished character is finished by its last bytes. -/
theorem decodeBytes_laterBytes {code count : Nat} {begun : Unfinished} {rest : List UInt8}
    (hcode : begun.code = code / 64 ^ (count + 1)) (hcount : begun.bytesAfterNext = count)
    (hleast : begun.leastNext ≤ code / 64 ^ count % 64 + 128)
    (hgreatest : code / 64 ^ count % 64 + 128 ≤ begun.greatestNext) :
    decodeBytes (some begun) (laterBytes code (count + 1) ++ rest) =
      Char.ofNat code :: decodeBytes none rest := by
  induction count generalizing begun with
  | zero =>
    have hwhole : begun.code * 0x40 + (code / 64 ^ 0 % 64 + 128 - 0x80) = code := by
      rw [hcode]
      omega
    rw [laterBytes, List.cons_append, decodeBytes, toNat_laterByte, readByte]
    simp only [hleast, hgreatest, and_self, if_true, hcount, hwhole]
    rfl
  | succ count ih =>
    have hnext : begun.code * 0x40 + (code / 64 ^ (count + 1) % 64 + 128 - 0x80) =
        code / 64 ^ (count + 1) := by
      rw [hcode, Nat.pow_succ, ← Nat.div_div_eq_div_mul]
      omega
    have hlater := Nat.mod_lt (code / 64 ^ count) (by decide : 0 < 64)
    rw [laterBytes, List.cons_append, decodeBytes, toNat_laterByte, readByte]
    simp only [hleast, hgreatest, and_self, if_true, hcount, hnext]
    exact ih rfl rfl (Nat.le_add_left _ _)
      (Nat.add_le_add_right (Nat.le_of_lt_succ (Nat.mod_lt _ (by decide : 0 < 64))) 128)

/-- A character is read from a first byte that leaves it unfinished and its last bytes. -/
theorem decodeBytes_cons_laterBytes {code count first : Nat} {begun : Unfinished}
    {rest : List UInt8} (hfirst : first < 256) (hbegin : beginCharacter first = ([], some begun))
    (hcode : begun.code = code / 64 ^ (count + 1)) (hcount : begun.bytesAfterNext = count)
    (hleast : begun.leastNext ≤ code / 64 ^ count % 64 + 128)
    (hgreatest : code / 64 ^ count % 64 + 128 ≤ begun.greatestNext) :
    decodeBytes none (UInt8.ofNat first :: laterBytes code (count + 1) ++ rest) =
      Char.ofNat code :: decodeBytes none rest := by
  rw [List.cons_append, decodeBytes, toNat_ofNat hfirst, readByte, hbegin]
  exact decodeBytes_laterBytes hcode hcount hleast hgreatest

theorem beginCharacter_two {high : Nat} (hleast : 2 ≤ high) (hgreatest : high < 32) :
    beginCharacter (high + 192) = ([], some { code := high, bytesAfterNext := 0 }) := by
  simp only [beginCharacter]
  rw [if_neg (by omega), if_neg (by omega), if_pos (by omega), Nat.add_sub_cancel]

theorem beginCharacter_three {high : Nat} (h : high < 16) :
    beginCharacter (high + 224) = ([], some
      { code := high
        bytesAfterNext := 1
        leastNext := if high = 0 then 0xa0 else 0x80
        greatestNext := if high = 13 then 0x9f else 0xbf }) := by
  interval_cases high <;> rfl

theorem beginCharacter_four {high : Nat} (h : high < 5) :
    beginCharacter (high + 240) = ([], some
      { code := high
        bytesAfterNext := 2
        leastNext := if high = 0 then 0x90 else 0x80
        greatestNext := if high = 4 then 0x8f else 0xbf }) := by
  interval_cases high <;> rfl

/-- A character is read from its bytes. -/
theorem decodeBytes_utf8EncodeChar (character : Char) (rest : List UInt8) :
    decodeBytes none (String.utf8EncodeChar character ++ rest) =
      character :: decodeBytes none rest := by
  have hvalid : character.toNat.isValidChar := character.valid
  have hchar := Char.ofNat_toNat character
  have hcode : character.val.toNat = character.toNat := rfl
  rw [String.utf8EncodeChar, hcode]
  generalize character.toNat = code at hvalid hchar
  subst hchar
  split_ifs with hone htwo hthree
  · rw [List.singleton_append, decodeBytes, toNat_ofNat (by omega), readByte, beginCharacter,
      if_pos (by omega)]
    rfl
  · have hbytes : [UInt8.ofNat (code / 64 % 32 + 192), UInt8.ofNat (code % 64 + 128)] =
        UInt8.ofNat (code / 64 ^ 1 + 192) :: laterBytes code 1 := by
      have hhigh : code / 64 % 32 = code / 64 := Nat.mod_eq_of_lt (by omega)
      simp [laterBytes, hhigh]
    rw [hbytes]
    exact decodeBytes_cons_laterBytes (by omega) (beginCharacter_two (by omega) (by omega)) rfl rfl
      (Nat.le_add_left _ _) (by dsimp only; omega)
  · have hbytes : [UInt8.ofNat (code / 4096 % 16 + 224), UInt8.ofNat (code / 64 % 64 + 128),
        UInt8.ofNat (code % 64 + 128)] =
        UInt8.ofNat (code / 64 ^ 2 + 224) :: laterBytes code 2 := by
      have hhigh : code / 4096 % 16 = code / 4096 := Nat.mod_eq_of_lt (by omega)
      simp [laterBytes, hhigh]
    rw [hbytes]
    exact decodeBytes_cons_laterBytes (by omega) (beginCharacter_three (by omega)) rfl rfl
      (by dsimp only; split_ifs <;> omega) (by dsimp only; split_ifs <;> omega)
  · have hbytes : [UInt8.ofNat (code / 262144 % 8 + 240), UInt8.ofNat (code / 4096 % 64 + 128),
        UInt8.ofNat (code / 64 % 64 + 128), UInt8.ofNat (code % 64 + 128)] =
        UInt8.ofNat (code / 64 ^ 3 + 240) :: laterBytes code 3 := by
      have hhigh : code / 262144 % 8 = code / 262144 := Nat.mod_eq_of_lt (by omega)
      simp [laterBytes, hhigh]
    rw [hbytes]
    exact decodeBytes_cons_laterBytes (by omega) (beginCharacter_four (by omega)) rfl rfl
      (by dsimp only; split_ifs <;> omega) (by dsimp only; split_ifs <;> omega)

/-- The bytes of a text are read as the text. -/
theorem decodeBytes_flatMap_utf8EncodeChar (text : List Char) :
    decodeBytes none (text.flatMap String.utf8EncodeChar) = text := by
  induction text with
  | nil => rfl
  | cons character rest ih => rw [List.flatMap_cons, decodeBytes_utf8EncodeChar, ih]

/-- The bytes of an array are listed in its order. -/
theorem toList_loop_eq (bytes : ByteArray) (index : Nat) (passed : List UInt8) :
    ByteArray.toList.loop bytes index passed =
      passed.reverse ++ bytes.data.toList.drop index := by
  fun_induction ByteArray.toList.loop bytes index passed with
  | case1 index passed hindex ih =>
    have hlength : index < bytes.data.toList.length := hindex
    have hbyte : bytes.get! index = bytes.data.toList[index] :=
      getElem!_pos bytes.data index hindex
    rw [ih, hbyte, List.drop_eq_getElem_cons hlength]
    simp
  | case2 index passed hindex =>
    rw [List.drop_eq_nil_of_le (by simpa using Nat.le_of_not_lt hindex), List.append_nil]

/-- A text is read back from its bytes. -/
theorem decodeUtf8Leniently_toUTF8 (text : List Char) :
    decodeUtf8Leniently (String.ofList text).toUTF8 = text := by
  have hbytes : (String.ofList text).toUTF8.toList = text.flatMap String.utf8EncodeChar := by
    rw [ByteArray.toList.eq_1, toList_loop_eq]
    exact List.toList_data_toByteArray
  rw [decodeUtf8Leniently, hbytes, decodeBytes_flatMap_utf8EncodeChar]

/-! ### Line ends -/

/-- A text with its line ends unified has no carriage return. -/
theorem not_mem_unifyLineEnds (text : List Char) : '\r' ∉ unifyLineEnds text := by
  induction text using unifyLineEnds.induct with
  | case1 => exact List.not_mem_nil
  | case2 rest ih =>
    rw [unifyLineEnds]
    exact List.not_mem_cons_of_ne_of_not_mem (by decide) ih
  | case3 rest hfeed ih =>
    rw [unifyLineEnds.eq_3 rest hfeed]
    exact List.not_mem_cons_of_ne_of_not_mem (by decide) ih
  | case4 character rest hboth hreturn ih =>
    rw [unifyLineEnds.eq_4 character rest hboth hreturn]
    exact List.not_mem_cons_of_ne_of_not_mem (fun h ↦ hreturn h.symm) ih

/-- A text without carriage returns has its line ends unified. -/
theorem unifyLineEnds_eq_self {text : List Char} (h : '\r' ∉ text) : unifyLineEnds text = text := by
  induction text with
  | nil => rfl
  | cons character rest ih =>
    obtain ⟨hcharacter, hrest⟩ := List.ne_and_not_mem_of_not_mem_cons h
    rw [unifyLineEnds.eq_4 character rest (fun _ he ↦ absurd he.symm hcharacter)
      (fun he ↦ hcharacter he.symm), ih hrest]

end Text

/-- A text without carriage returns is what its bytes stand for. -/
theorem Manual.textOf_toUTF8 {text : List Char} (h : '\r' ∉ text) :
    Manual.textOf (String.ofList text).toUTF8 = text := by
  rw [Manual.textOf, Text.decodeUtf8Leniently_toUTF8, Text.unifyLineEnds_eq_self h]

/-! ### Files in a directory -/

namespace Table

variable {Key Value : Type} [DecidableEq Key]

/-- An entry of the value that a key has already changes nothing. -/
theorem put_eq_self {table : Table Key Value} {key : Key} {value : Value}
    (h : table.get? key = some value) : table.put key value = table := by
  obtain ⟨entries⟩ := table
  unfold put
  congr 1
  unfold get? at h
  dsimp only at h ⊢
  induction entries with
  | nil => cases h
  | cons entry rest ih =>
    rw [putEntry]
    split_ifs with hentry
    · have hvalue : entry.2 = value := by simpa [hentry] using h
      rw [← hentry, ← hvalue]
    · rw [ih (by simpa [List.find?_cons, hentry] using h)]

end Table

namespace Directory

variable {directory : Directory} {path : String} {bytes : ByteArray}

/-- Where parts of a path lead depends on the folders alone. -/
theorem follow?_files (files : Table Place ByteArray) (place : Place) (parts : List String) :
    follow? { directory with files } place parts = directory.follow? place parts := by
  induction parts generalizing place with
  | nil => rfl
  | cons part later ih =>
    rw [follow?, follow?]
    simp only [ih]
    rfl

/-- Which place a path names depends on the folders alone. -/
theorem locate?_files (files : Table Place ByteArray) (path : String) :
    locate? { directory with files } path = directory.locate? path := by
  rw [locate?, locate?, follow?_files]

/-- Folders that are there are not made. -/
theorem makeFolders_eq_self {place reached : Place} {parts : List String}
    (h : directory.follow? place parts = some reached) :
    directory.makeFolders place parts = directory := by
  induction parts generalizing place with
  | nil => rfl
  | cons part later ih =>
    rw [follow?] at h
    rw [makeFolders]
    split at h
    · cases h
    · next next hnext =>
      split_ifs at h with hfolder
      have hmade : directory.makeFolder next = directory := by
        rw [makeFolder, hfolder, Bool.true_or, if_pos rfl]
      simp only [hmade]
      exact ih h

/-- A path is written at the place that it names. -/
theorem write_eq {place : Place} (h : directory.locate? path = some place) (bytes : ByteArray) :
    directory.write path bytes =
      if directory.isFolder place then directory
      else { directory with files := directory.files.put place bytes } := by
  have hprepared : directory.makeFolders [] (Path.parts path).dropLast = directory := by
    rw [locate?] at h
    split_ifs at h
    split at h
    · cases h
    · next hfollow => exact makeFolders_eq_self hfollow
  simp only [write, hprepared, h]

/-- A file that is written again with what it holds leaves the directory as it is. -/
theorem write_eq_self (h : directory.contents path = some bytes) :
    directory.write path bytes = directory := by
  rw [contents] at h
  split at h
  · cases h
  · next place hplace =>
    rw [write_eq hplace, Table.put_eq_self h, ite_self]

/-- A file that is there is written unless a folder is at its place too; then every path that names
the place leads to what was written, and every other to what it led to before. -/
theorem write_eq_self_or_contents_write (h : (directory.contents path).isSome)
    (bytes : ByteArray) :
    directory.write path bytes = directory ∨
      ∀ other, (directory.write path bytes).contents other =
        if directory.locate? other = directory.locate? path then some bytes
        else directory.contents other := by
  rw [contents] at h
  split at h
  · cases h
  · next place hplace =>
    rw [write_eq hplace]
    split_ifs with hfolder
    · exact Or.inl rfl
    refine Or.inr fun other ↦ ?_
    rw [contents, contents, locate?_files, hplace]
    cases hother : directory.locate? other with
    | none => simp
    | some there =>
      simp only [Table.get?_put, Option.some.injEq]
      by_cases hsame : there = place
      · simp [hsame]
      · rw [if_neg hsame, if_neg fun e ↦ hsame e.symm]

end Directory

end TickEconomy
