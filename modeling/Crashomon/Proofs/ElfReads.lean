import Crashomon.Base.ElfNotes
import Crashomon.Daemon.ElfBuildId
import Crashomon.Tools.ElfBuildId

/-! What each reading of an ELF file gives where it stays inside: the daemon's in the mapped
pages, the tool's in the file. -/

namespace Crashomon.Proofs.ElfReads
open Bytes Memory Python ElfNotes
open Daemon.ElfBuildId (mapFile pageSize sizeT sizeT_of_lt loadUnsigned)

section Mapping
variable {file : Buffer}

theorem leValue_zeros (count : Nat) : leValue (List.replicate count 0) = 0 := by
  induction count with
  | zero => rfl
  | succ count ih => simp [List.replicate_succ, leValue, ih]

theorem leValue_append_zeros (bytes : List UInt8) (count : Nat) : leValue (bytes ++ List.replicate count 0) = leValue bytes := by
  induction bytes with
  | nil => exact leValue_zeros count
  | cons byte bytes ih => rw [List.cons_append, leValue, leValue, ih]

theorem length_mapFile (file : Buffer) :
    (mapFile file).length = file.length + (pageSize - file.length % pageSize) % pageSize := by
  rw [mapFile, List.length_append, List.length_replicate]

theorem mapFile_bounds (file : Buffer) : file.length ≤ (mapFile file).length ∧ (mapFile file).length < file.length + 4096 := by
  rw [length_mapFile, pageSize]
  omega

theorem slice_mapFile (file : Buffer) (off width : Nat) :
    ∃ count, slice (mapFile file) off width = slice file off width ++ List.replicate count 0 := by
  refine ⟨min (width - (file.drop off).length) ((pageSize - file.length % pageSize) % pageSize - (off - file.length)), ?_⟩
  rw [slice, mapFile, List.drop_append, List.take_append, List.drop_replicate, List.take_replicate, slice]

theorem unsignedAt_mapFile (file : Buffer) (off width : Nat) : unsignedAt (mapFile file) off width = unsignedAt file off width := by
  obtain ⟨count, same⟩ := slice_mapFile file off width
  rw [unsignedAt, same, leValue_append_zeros, unsignedAt]

theorem slice_mapFile_inside {off width : Nat} (inside : off + width ≤ file.length) :
    slice (mapFile file) off width = slice file off width := by
  apply slice_congr
  intro i _ before
  rw [mapFile, List.getElem?_append_left (by omega)]

theorem loadUnsigned_mapFile (small : file.length < 2 ^ 63) {off width : Nat} (inside : off + width ≤ (mapFile file).length) :
    loadUnsigned (mapFile file) off width = .ok (unsignedAt file off width) := by
  have bounds := mapFile_bounds file
  rw [loadUnsigned, sizeT_of_lt (by omega), load_inside inside, Memory.ok_bind, ← unsignedAt_mapFile, unsignedAt]

end Mapping

section Notes
variable {file : Buffer}

/-- No size wraps when it is padded, in the notes up to the build ID. -/
def Straight (stop : Nat) : List Note → Prop
  | [] => True
  | note :: notes => note.nameSize < 2 ^ 32 - 3 ∧ (note.Identifies stop ∨ note.descSize < 2 ^ 32 - 3 ∧ Straight stop notes)

theorem padded_le (size : Nat) : padded size ≤ size + 3 := Nat.div_mul_le_self _ _

theorem tool_notes {stop : Nat} (inside : stop ≤ file.length) (rounds pos : Nat) :
    Tools.ElfBuildId.parseBuildIdNoteFrom file stop rounds pos =
      .ok (((notesFrom file stop rounds pos).find? (Note.Identifies stop)).map (Note.desc file)) := by
  induction rounds generalizing pos with
  | zero => rfl
  | succ rounds ih =>
    rw [Tools.ElfBuildId.parseBuildIdNoteFrom, notesFrom]
    split
    next => rfl
    next whole =>
      rw [unpackUnsigned_inside (by omega), unpackUnsigned_inside (by omega), unpackUnsigned_inside (by omega)]
      simp only [Python.ok_bind]
      by_cases identifies : (noteAt file pos).Identifies stop
      · rw [List.find?_cons_of_pos (by simpa using identifies)]
        exact if_pos identifies
      · rw [List.find?_cons_of_neg (by simpa using identifies), Note.next, Note.descOffset, Nat.add_assoc _ (padded _), ← ih]
        exact if_neg identifies

theorem tool_parseBuildIdNote {off size : Nat} (inside : off + size ≤ file.length) :
    Tools.ElfBuildId.parseBuildIdNote file off size = .ok (firstBuildId file off size) :=
  tool_notes inside size off

theorem daemon_notes (small : file.length < 2 ^ 63) {base size : Nat} (inside : base + size ≤ file.length)
    {rounds pos : Nat} (bounded : pos < 2 ^ 63 + 2 ^ 34)
    (straight : Straight (base + size) (notesFrom file (base + size) rounds (base + pos))) :
    Daemon.ElfBuildId.parseBuildIdNoteFrom (mapFile file) base size rounds pos =
      .ok ((((notesFrom file (base + size) rounds (base + pos)).find? (Note.Identifies (base + size))).map
        (Note.desc file)).getD []) := by
  have bounds := mapFile_bounds file
  induction rounds generalizing pos with
  | zero => rfl
  | succ rounds ih =>
    rw [notesFrom] at straight ⊢
    rw [Daemon.ElfBuildId.parseBuildIdNoteFrom, @sizeT_of_lt (pos + 12) (by omega)]
    by_cases whole : size < pos + 12
    · rw [if_pos whole, if_pos (by omega)]
      rfl
    · rw [if_neg (show ¬ base + size < base + pos + 12 by omega)] at straight ⊢
      have descWord : unsignedAt file (base + pos + 4) 4 < 2 ^ 32 := word_lt _ _
      rw [if_neg whole, loadUnsigned_mapFile small (by omega), loadUnsigned_mapFile small (by omega),
        loadUnsigned_mapFile small (by omega)]
      simp only [Memory.ok_bind]
      generalize noted : noteAt file (base + pos) = note at straight ⊢
      obtain ⟨position, nameSize, descSize, type⟩ := note
      obtain ⟨rfl, named, described, typed⟩ := Note.mk.inj noted
      rw [described] at descWord
      rw [named, described, typed]
      obtain ⟨shortName, later⟩ := straight
      simp only [Note.next, Note.descOffset] at shortName later ⊢
      have nameBound := padded_le nameSize
      have descBound := padded_le descSize
      have namePadded : Daemon.ElfBuildId.clearLow (u32 (nameSize + 3)) = padded nameSize :=
        congrArg Daemon.ElfBuildId.clearLow (u32_of_lt (by omega))
      rw [namePadded, @sizeT_of_lt (pos + 12 + _) (by omega), @sizeT_of_lt (_ + descSize) (by omega)]
      by_cases identifies : (⟨base + pos, nameSize, descSize, type⟩ : Note).Identifies (base + size)
      · have kind := identifies.1
        have positive := identifies.2.1
        have fits := identifies.2.2
        simp only [Note.descOffset] at kind positive fits
        rw [List.find?_cons_of_pos (by simpa using identifies), if_pos ⟨kind, positive, by omega⟩,
          sizeT_of_lt (by omega), load_inside (by omega), slice_mapFile_inside (by omega)]
        have place : base + (pos + 12 + padded nameSize) = base + pos + 12 + padded nameSize := by omega
        rw [place]
        rfl
      · have other : ¬ (type = Daemon.ElfBuildId.kNtGnuBuildId ∧ 0 < descSize ∧ pos + 12 + padded nameSize + descSize ≤ size) := by
          intro ⟨kind, positive, fits⟩
          refine identifies ⟨kind, positive, ?_⟩
          simp only [Note.descOffset]
          omega
        obtain ⟨shortDesc, straight⟩ := later.resolve_left identifies
        have descPadded : Daemon.ElfBuildId.clearLow (u32 (descSize + 3)) = padded descSize :=
          congrArg Daemon.ElfBuildId.clearLow (u32_of_lt (by omega))
        have onward : base + pos + 12 + padded nameSize + padded descSize = base + (pos + 12 + (padded nameSize + padded descSize)) := by
          omega
        rw [List.find?_cons_of_neg (by simpa using identifies), if_neg other, descPadded, sizeT_of_lt (by omega), onward]
        rw [onward] at straight
        exact ih (by omega) straight

theorem daemon_parseBuildIdNote (small : file.length < 2 ^ 63) {off size : Nat} (inside : off + size ≤ file.length)
    (straight : Straight (off + size) (notesFrom file (off + size) size off)) :
    Daemon.ElfBuildId.parseBuildIdNote (mapFile file) off size = .ok ((firstBuildId file off size).getD []) :=
  daemon_notes small inside (by decide) straight

/-- A region without room for a header is not read, wherever it lies. -/
theorem daemon_parseBuildIdNote_short {map : Buffer} {off size : Nat} (short : size < 12) :
    Daemon.ElfBuildId.parseBuildIdNote map off size = .ok [] := by
  unfold Daemon.ElfBuildId.parseBuildIdNote
  cases size with
  | zero => rfl
  | succ rounds => exact if_pos short

end Notes

section Names
variable {file : Buffer} {off : Nat} {word : ByteString}

/-- The bytes of a name up to its NUL, or to the end of the file. -/
def nameAt (file : Buffer) (off : Nat) : ByteString := (file.drop off).takeWhile (· ≠ 0)

/-- A comparison leaves the mapping where what is left of it is the beginning of the word. -/
def Compares (file : Buffer) (off : Nat) (word : ByteString) : Prop := ¬ (mapFile file).drop off <+: word

instance : Decidable (Compares file off word) := inferInstanceAs (Decidable (¬ _))

theorem takeWhile_mapFile (inside : off ≤ file.length) : ((mapFile file).drop off).takeWhile (· ≠ 0) = nameAt file off := by
  have zeros (count : Nat) : (List.replicate count (0 : UInt8)).takeWhile (· ≠ 0) = [] := by
    cases count <;> simp [List.replicate_succ]
  rw [mapFile, List.drop_append_of_le_length inside, List.takeWhile_append, zeros, List.append_nil, nameAt]
  split
  next whole => exact ((List.takeWhile_prefix _).eq_of_length whole).symm
  next => rfl

theorem nameEquals_eq {map : Buffer} (small : map.length < 2 ^ 64) (plain : 0 ∉ word) (ends : ¬ map.drop off <+: word) :
    Daemon.ElfBuildId.nameEquals map off word = .ok (decide ((map.drop off).takeWhile (· ≠ 0) = word)) := by
  induction word generalizing off with
  | nil =>
    have inside : off < map.length := by
      by_contra beyond
      rw [List.drop_eq_nil_of_le (Nat.le_of_not_lt beyond)] at ends
      exact ends (List.nil_prefix)
    rw [Daemon.ElfBuildId.nameEquals, sizeT_of_lt (by omega), loadByte_inside inside, Memory.ok_bind,
      List.drop_eq_getElem_cons inside, List.takeWhile_cons]
    by_cases last : map[off] = 0 <;> simp [last]
  | cons character word ih =>
    have inside : off < map.length := by
      by_contra beyond
      rw [List.drop_eq_nil_of_le (Nat.le_of_not_lt beyond)] at ends
      exact ends (List.nil_prefix)
    have first : 0 ≠ character := List.ne_of_not_mem_cons plain
    have later : 0 ∉ word := List.not_mem_of_not_mem_cons plain
    rw [List.drop_eq_getElem_cons inside] at ends ⊢
    rw [Daemon.ElfBuildId.nameEquals, sizeT_of_lt (by omega), loadByte_inside inside, Memory.ok_bind, List.takeWhile_cons]
    by_cases same : map[off] = character
    · rw [same, List.cons_prefix_cons] at ends
      rw [if_pos same, ih later fun rest => ends ⟨rfl, rest⟩, same]
      simp [Ne.symm first]
    · rw [if_neg same]
      by_cases last : map[off] = 0
      · simp [last]
      · simp [last, same]

theorem daemon_nameEquals (small : file.length < 2 ^ 63) (inside : off ≤ file.length) (plain : 0 ∉ word)
    (ends : Compares file off word) :
    Daemon.ElfBuildId.nameEquals (mapFile file) off word = .ok (decide (nameAt file off = word)) := by
  have bounds := mapFile_bounds file
  rw [nameEquals_eq (by omega) plain ends, takeWhile_mapFile inside]

theorem decodeAscii_eq_iff {byte : UInt8} {character : Char} (small : character.toNat < 0x80) :
    Tools.ElfBuildId.decodeAscii byte = character ↔ byte = UInt8.ofNat character.toNat := by
  unfold Tools.ElfBuildId.decodeAscii
  constructor
  · intro decoded
    split at decoded
    next ascii =>
      have low : byte.toNat < 0x80 := ascii
      rw [← decoded, toNat_ofNat_valid (Or.inl (by omega)), UInt8.ofNat_toNat]
    next =>
      rw [← decoded] at small
      exact absurd small (by decide)
  · intro same
    have value : byte.toNat = character.toNat := by
      rw [same, UInt8.toNat_ofNat', Nat.mod_eq_of_lt (by omega)]
    have ascii : byte < 0x80 := by
      rw [UInt8.lt_iff_toNat_lt, value]
      exact small
    rw [if_pos ascii, value, Char.ofNat_toNat]

theorem tool_cStr {text : Text} (plain : text.all (·.toNat < 0x80)) :
    Tools.ElfBuildId.cStr file off = text ↔ nameAt file off = text.map fun character => UInt8.ofNat character.toNat := by
  rw [Tools.ElfBuildId.cStr, ← nameAt]
  generalize nameAt file off = name
  induction text generalizing name with
  | nil => simp
  | cons character text ih =>
    rw [List.all_cons, Bool.and_eq_true_iff] at plain
    obtain ⟨small, later⟩ := plain
    cases name with
    | nil => simp
    | cons byte name =>
      rw [List.map_cons, List.map_cons, List.cons.injEq, List.cons.injEq, decodeAscii_eq_iff (of_decide_eq_true small), ih later]

end Names

section Xor
variable {file buf : Buffer}

/-- The byte at an offset, zero past the end. -/
def byteAt (buf : Buffer) (off : Nat) : UInt8 := buf[off]?.getD 0

/-- Every sixteenth byte from an offset on, combined. -/
def column (buf : Buffer) : (count off : Nat) → UInt8
  | 0, _ => 0
  | count + 1, off => byteAt buf off ^^^ column buf count (off + 16)

def columns (buf : Buffer) (count off : Nat) : List UInt8 := (List.range 16).map fun k => column buf count (off + k)

theorem column_append (first second off : Nat) :
    column buf (first + second) off = column buf first off ^^^ column buf second (off + 16 * first) := by
  induction first generalizing off with
  | zero => simp [column]
  | succ first ih =>
    rw [Nat.add_right_comm, column, column, ih, UInt8.xor_assoc, show off + 16 + 16 * first = off + 16 * (first + 1) by omega]

theorem column_beyond {off : Nat} (beyond : buf.length ≤ off) (count : Nat) : column buf count off = 0 := by
  induction count generalizing off with
  | zero => rfl
  | succ count ih =>
    rw [column, ih (by omega), byteAt, List.getElem?_eq_none beyond]
    rfl

theorem column_congr {other : Buffer} {count first second : Nat}
    (same : ∀ step < count, byteAt buf (first + 16 * step) = byteAt other (second + 16 * step)) :
    column buf count first = column other count second := by
  induction count generalizing first second with
  | zero => rfl
  | succ count ih =>
    have here : byteAt buf first = byteAt other second := same 0 (by omega)
    have later : column buf count (first + 16) = column other count (second + 16) := by
      apply ih
      intro step before
      have next := same (step + 1) (by omega)
      rwa [show first + 16 * (step + 1) = first + 16 + 16 * step by omega,
        show second + 16 * (step + 1) = second + 16 + 16 * step by omega] at next
    rw [column, column, here, later]

theorem byteAt_mapFile (file : Buffer) (off : Nat) : byteAt (mapFile file) off = byteAt file off := by
  unfold byteAt mapFile
  by_cases inside : off < file.length
  · rw [List.getElem?_append_left inside]
  · rw [List.getElem?_append_right (by omega), List.getElem?_replicate, List.getElem?_eq_none (by omega)]
    split <;> rfl

theorem zipWith_slice (f : Nat → UInt8) {off : Nat} (inside : off + 16 ≤ buf.length) :
    List.zipWith (· ^^^ ·) ((List.range 16).map f) (slice buf off 16) = (List.range 16).map fun k => f k ^^^ byteAt buf (off + k) := by
  have bytes : slice buf off 16 = (List.range 16).map fun k => byteAt buf (off + k) := by
    apply List.ext_getElem?
    intro k
    rw [getElem?_slice, List.getElem?_map]
    split
    next before =>
      have here : off + k < buf.length := by omega
      rw [List.getElem?_range before, Option.map_some, byteAt, List.getElem?_eq_getElem here, Option.getD_some]
    next beyond => rw [List.getElem?_eq_none (by simpa using beyond), Option.map_none]
  rw [bytes, List.zipWith_map_left, List.zipWith_map_right, List.zipWith_self]

theorem xorBlocks_eq (f : Nat → UInt8) {blocks off : Nat} (inside : off + 16 * blocks ≤ buf.length) :
    Tools.ElfBuildId.xorBlocks buf blocks off ((List.range 16).map f) =
      (List.range 16).map fun k => f k ^^^ column buf blocks (off + k) := by
  induction blocks generalizing off f with
  | zero => simp [Tools.ElfBuildId.xorBlocks, column]
  | succ blocks ih =>
    rw [Tools.ElfBuildId.xorBlocks, Tools.ElfBuildId.xorHashSize, zipWith_slice f (by omega), ih _ (by omega)]
    simp only [column, UInt8.xor_assoc, Nat.add_right_comm]

theorem zeros_eq : List.replicate 16 (0 : UInt8) = (List.range 16).map fun _ => 0 := by decide

theorem byteAt_padded (file : Buffer) (off length count j : Nat) :
    byteAt (slice file off length ++ List.replicate count 0) j = if j < length then byteAt file (off + j) else 0 := by
  unfold byteAt
  by_cases inside : j < (slice file off length).length
  · have before : j < length := Nat.lt_of_lt_of_le inside (List.length_take_le _ _)
    rw [List.getElem?_append_left inside, getElem?_slice]
    simp [before]
  · have zero : ((slice file off length ++ List.replicate count (0 : UInt8))[j]?).getD 0 = 0 := by
      rw [List.getElem?_append_right (by omega), List.getElem?_replicate]
      split <;> rfl
    rw [zero]
    split
    next before =>
      have nothing : (slice file off length)[j]? = none := List.getElem?_eq_none (by omega)
      rw [getElem?_slice, if_pos before] at nothing
      rw [nothing]
      rfl
    next => rfl

def padChunk (chunk : Buffer) : Buffer :=
  if chunk.length % 16 ≠ 0 then chunk ++ List.replicate (16 - chunk.length % 16) 0 else chunk

theorem padChunk_eq (chunk : Buffer) :
    ∃ count, count < 16 ∧ (chunk.length + count) % 16 = 0 ∧ padChunk chunk = chunk ++ List.replicate count 0 := by
  unfold padChunk
  split
  next ragged => exact ⟨16 - chunk.length % 16, by omega, by omega, rfl⟩
  next => exact ⟨0, by omega, by omega, by simp⟩

theorem xorTextHash_padded (file : Buffer) (textOff textSize : Nat) {length : Nat}
    (rounded : min textSize 4096 + (16 - min textSize 4096 % 16) % 16 = length) :
    Tools.ElfBuildId.xorTextHash file textOff textSize =
      Tools.ElfBuildId.xorBlocks (padChunk (slice file textOff length)) ((padChunk (slice file textOff length)).length / 16) 0
        (List.replicate 16 0) := by
  rw [← rounded]
  rfl

/-- Rounding up and padding leave the columns as they are: what lies past the end is zero. -/
theorem xorTextHash_eq (file : Buffer) (textOff textSize : Nat) :
    Tools.ElfBuildId.xorTextHash file textOff textSize = columns file ((min textSize 4096 + 15) / 16) textOff := by
  generalize blocksSame : (min textSize 4096 + 15) / 16 = blocks
  obtain ⟨count, short, whole, padded⟩ := padChunk_eq (slice file textOff (16 * blocks))
  have length : (slice file textOff (16 * blocks)).length = min (16 * blocks) (file.length - textOff) := by
    rw [slice, List.length_take, List.length_drop]
  rw [xorTextHash_padded file textOff textSize (show _ = 16 * blocks by omega), padded, zeros_eq, List.length_append,
    List.length_replicate]
  generalize blockCount : ((slice file textOff (16 * blocks)).length + count) / 16 = full
  rw [xorBlocks_eq _ (by rw [List.length_append, List.length_replicate]; omega), columns]
  apply List.map_congr_left
  intro k member
  have small : k < 16 := List.mem_range.mp member
  have rest : column file (blocks - full) (textOff + k + 16 * full) = 0 := by
    by_cases all : blocks = full
    · rw [all, Nat.sub_self, column]
    · exact column_beyond (by omega) _
  have split := @column_append file full (blocks - full) (textOff + k)
  rw [rest, UInt8.xor_zero, Nat.add_sub_of_le (by omega)] at split
  rw [UInt8.zero_xor, split]
  apply column_congr
  intro step before
  rw [byteAt_padded, if_pos (by omega)]
  congr 1
  omega

theorem xorChunk_eq {map : Buffer} (small : map.length < 2 ^ 64) {off : Nat} {hash : List UInt8} (inside : off + hash.length ≤ map.length) :
    Daemon.ElfBuildId.xorChunk map off hash = .ok (List.zipWith (· ^^^ ·) hash (slice map off hash.length)) := by
  induction hash generalizing off with
  | nil => rfl
  | cons byte hash ih =>
    rw [List.length_cons] at inside ⊢
    have here : off < map.length := by omega
    have bytes : slice map off (hash.length + 1) = map[off] :: slice map (off + 1) hash.length := by
      rw [slice, List.drop_eq_getElem_cons here, List.take_succ_cons, slice]
    rw [Daemon.ElfBuildId.xorChunk, sizeT_of_lt (by omega), loadByte_inside here, Memory.ok_bind, ih (by omega), Memory.ok_bind,
      bytes, List.zipWith_cons_cons]

theorem xorChunks_eq {map : Buffer} (small : map.length < 2 ^ 64) (f : Nat → UInt8) {chunks off : Nat}
    (inside : off + 16 * chunks ≤ map.length) :
    Daemon.ElfBuildId.xorChunks map chunks off ((List.range 16).map f) =
      .ok ((List.range 16).map fun k => f k ^^^ column map chunks (off + k)) := by
  induction chunks generalizing off f with
  | zero => simp [Daemon.ElfBuildId.xorChunks, column]
  | succ chunks ih =>
    rw [Daemon.ElfBuildId.xorChunks, Daemon.ElfBuildId.kXorHashSize, xorChunk_eq small (by simpa using (by omega)), Memory.ok_bind]
    simp only [List.length_map, List.length_range]
    rw [zipWith_slice f (by omega), ih _ (by omega)]
    simp only [column, UInt8.xor_assoc, Nat.add_right_comm]

theorem xorTextSection_eq (small : file.length < 2 ^ 63) {textOff textSize : Nat}
    (inside : textOff + 16 * ((min textSize 4096 + 15) / 16) ≤ (mapFile file).length) :
    Daemon.ElfBuildId.xorTextSection (mapFile file) textOff textSize =
      .ok (columns file ((min textSize 4096 + 15) / 16) textOff) := by
  have bounds := mapFile_bounds file
  have combined := xorChunks_eq (by omega) (fun _ => 0) inside
  rw [← zeros_eq] at combined
  refine combined.trans ?_
  rw [columns]
  simp only [UInt8.zero_xor]
  congr 1
  apply List.map_congr_left
  intro k _
  exact column_congr fun step _ => byteAt_mapFile file _

end Xor

end Crashomon.Proofs.ElfReads
