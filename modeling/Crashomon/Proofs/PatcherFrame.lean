import Crashomon.Proofs.PatcherFile

/-! What patching does to a well-formed dump. The structures of such a dump do
not overlap, so that a patched record disturbs neither what later turns of the
loop read nor what earlier turns wrote. -/

namespace Crashomon.Proofs.PatcherFrame
open Bytes Memory Daemon.MinidumpPatcher PatcherSteps PatcherBounds PatcherFile

/-- The range lies in the file and in the 32-bit address space of a dump. -/
structure Located (buf : Buffer) (rva length : Nat) : Prop where
  file : rva + length ≤ buf.length
  address : rva + length ≤ 2 ^ 32

instance (buf : Buffer) (rva length : Nat) : Decidable (Located buf rva length) :=
  decidable_of_iff (rva + length ≤ buf.length ∧ rva + length ≤ 2 ^ 32)
    ⟨fun ⟨file, address⟩ => ⟨file, address⟩, fun ⟨file, address⟩ => ⟨file, address⟩⟩

def recordOff (streamRva i : Nat) : Nat := streamRva + 4 + i * kModuleSize

def AsciiBytes : List UInt8 → Prop
  | lo :: hi :: rest => lo.toNat < 128 ∧ hi = 0 ∧ AsciiBytes rest
  | _ => True

instance decidableAsciiBytes : (bytes : List UInt8) → Decidable (AsciiBytes bytes)
  | [] => isTrue trivial
  | [_] => isTrue trivial
  | lo :: hi :: rest =>
    have := decidableAsciiBytes rest
    inferInstanceAs (Decidable (lo.toNat < 128 ∧ hi = 0 ∧ AsciiBytes rest))

/-- The text of such bytes; a NUL ends up in no path. -/
def asciiText : List UInt8 → Text
  | lo :: _ :: rest => if lo = 0 then asciiText rest else Char.ofNat lo.toNat :: asciiText rest
  | _ => []

theorem asciiUnits_eq : ∀ {bytes : List UInt8}, AsciiBytes bytes → asciiUnits bytes = asciiText bytes
  | [], _ => rfl
  | [_], _ => rfl
  | lo :: hi :: rest, ⟨small, zero, later⟩ => by
    have value : lo.toNat ||| hi.toNat <<< 8 = lo.toNat := by simp [zero]
    rw [asciiUnits, value, asciiText, asciiUnits_eq later]
    by_cases nul : lo = 0
    · simp [nul]
    · have positive : lo.toNat ≠ 0 := fun same => nul (UInt8.toNat_inj.mp same)
      simp [nul, small, positive]

def nameText (buf : Buffer) (rva : Nat) : Text :=
  if rva = 0 then [] else asciiText (slice buf (rva + 4) (getU32 buf rva))

structure AsciiName (buf : Buffer) (rva : Nat) : Prop where
  located : Located buf rva (4 + getU32 buf rva)
  even : getU32 buf rva % 2 = 0
  ascii : AsciiBytes (slice buf (rva + 4) (getU32 buf rva))

instance (buf : Buffer) (rva : Nat) : Decidable (AsciiName buf rva) :=
  decidable_of_iff (Located buf rva (4 + getU32 buf rva) ∧ getU32 buf rva % 2 = 0 ∧
      AsciiBytes (slice buf (rva + 4) (getU32 buf rva)))
    ⟨fun ⟨located, even, ascii⟩ => ⟨located, even, ascii⟩, fun ⟨located, even, ascii⟩ => ⟨located, even, ascii⟩⟩

theorem readModuleName_ascii {buf : Buffer} {rva : Nat} (name : rva ≠ 0 → AsciiName buf rva) :
    readModuleName buf rva = .ok (nameText buf rva) := by
  by_cases absent : rva = 0
  · simp [readModuleName, nameText, absent]
  · obtain ⟨⟨file, address⟩, even, ascii⟩ := name absent
    rw [nameText, if_neg absent, ← asciiUnits_eq ascii]
    by_cases empty : getU32 buf rva = 0
    · rw [readModuleName_skipped fun guarded => guarded.nonempty empty, empty]
      rfl
    · have header : u32 (rva + 4) ≤ buf.length := Nat.le_trans (u32_le _) (by omega)
      have fits : u32 (rva + 4 + getU32 buf rva) ≤ buf.length := Nat.le_trans (u32_le _) (by omega)
      exact readModuleName_straight ⟨absent, header, empty, even, fits⟩ (by omega) (by omega)

/-- The first entry of type 4 in the directory gives the module list's offset. -/
def FirstModuleList (buf : Buffer) (streamRva : Nat) : Prop :=
  ∃ entry < getU32 buf 8, getU32 buf (getU32 buf 12 + entry * kDirEntrySize) = kModuleListStream ∧
    getU32 buf (getU32 buf 12 + entry * kDirEntrySize + 8) = streamRva ∧
    ∀ earlier < entry, getU32 buf (getU32 buf 12 + earlier * kDirEntrySize) ≠ kModuleListStream

instance (buf : Buffer) (streamRva : Nat) : Decidable (FirstModuleList buf streamRva) := by
  unfold FirstModuleList
  infer_instance

/-- A dump whose header, directory, module list, names and CodeView records are
in bounds, with CodeView records that overlap nothing. -/
structure WellFormed (buf : Buffer) (streamRva count : Nat) : Prop where
  header : 32 ≤ buf.length
  signature : getU32 buf 0 = kMdmpSignature
  directory : getU32 buf 12 + getU32 buf 8 * kDirEntrySize ≤ buf.length
  listed : FirstModuleList buf streamRva
  list : Located buf streamRva (4 + count * kModuleSize)
  records : getU32 buf streamRva = count
  bounded : count ≤ 4096
  names : ∀ i < count, nameRva buf (recordOff streamRva i) ≠ 0 → AsciiName buf (nameRva buf (recordOff streamRva i))
  ranges : ∀ i < count, Located buf (cvRva buf (recordOff streamRva i)) (cvSize buf (recordOff streamRva i))
  cv_apart : ∀ i < count, ∀ j < count, i ≠ j →
    Apart (cvRva buf (recordOff streamRva i)) (cvSize buf (recordOff streamRva i))
      (cvRva buf (recordOff streamRva j)) (cvSize buf (recordOff streamRva j))
  cv_header : ∀ i < count, Apart (cvRva buf (recordOff streamRva i)) (cvSize buf (recordOff streamRva i)) 0 32
  cv_directory : ∀ i < count, Apart (cvRva buf (recordOff streamRva i)) (cvSize buf (recordOff streamRva i))
    (getU32 buf 12) (getU32 buf 8 * kDirEntrySize)
  cv_list : ∀ i < count, Apart (cvRva buf (recordOff streamRva i)) (cvSize buf (recordOff streamRva i))
    streamRva (4 + count * kModuleSize)
  cv_names : ∀ i < count, ∀ j < count, nameRva buf (recordOff streamRva j) ≠ 0 →
    Apart (cvRva buf (recordOff streamRva i)) (cvSize buf (recordOff streamRva i))
      (nameRva buf (recordOff streamRva j)) (4 + getU32 buf (nameRva buf (recordOff streamRva j)))

/-- Such a dump whose module list overlaps nothing either: patching also writes
the size field of a record. -/
structure LaidOut (buf : Buffer) (streamRva count : Nat) : Prop extends WellFormed buf streamRva count where
  list_directory : Apart streamRva (4 + count * kModuleSize) (getU32 buf 12) (getU32 buf 8 * kDirEntrySize)
  list_names : ∀ i < count, nameRva buf (recordOff streamRva i) ≠ 0 →
    Apart streamRva (4 + count * kModuleSize)
      (nameRva buf (recordOff streamRva i)) (4 + getU32 buf (nameRva buf (recordOff streamRva i)))

structure Replaced (elf : ElfLookup) (buf : Buffer) (off : Nat) (buildId : List UInt8) : Prop where
  unsigned : getU32 buf (cvRva buf off) ≠ kBpElSignature
  large : 4 + kXorHashSize ≤ cvSize buf off
  named : nameText buf (nameRva buf off) ≠ []
  found : elf (nameText buf (nameRva buf off)) = buildId
  nonempty : buildId ≠ []
  fits : 4 + buildId.length ≤ cvSize buf off

/-- The bytes that patching such a record may change. -/
def Touched (buf : Buffer) (off : Nat) (buildId : List UInt8) (k : Nat) : Prop :=
  InRange k (cvRva buf off) (4 + buildId.length) ∨ InRange k (off + kModCvDataSizeOff) 4

/-- The record as patching leaves it: signature, build ID and size. -/
structure Written (buf out : Buffer) (off : Nat) (buildId : List UInt8) : Prop where
  signature : getU32 out (cvRva buf off) = kBpElSignature
  identifier : slice out (cvRva buf off + 4) buildId.length = buildId
  size : getU32 out (off + kModCvDataSizeOff) = 4 + buildId.length

def patchedRecord (buf : Buffer) (off cv : Nat) (buildId : List UInt8) : Buffer :=
  overwrite (overwrite (overwrite buf cv (le32 kBpElSignature)) (cv + 4) buildId) (off + kModCvDataSizeOff)
    (le32 (4 + buildId.length))

section Record
variable {buf : Buffer} {off cv : Nat} {buildId : List UInt8}

theorem length_writes (inside : cv + 4 + buildId.length ≤ buf.length) :
    (overwrite buf cv (le32 kBpElSignature)).length = buf.length ∧
      (overwrite (overwrite buf cv (le32 kBpElSignature)) (cv + 4) buildId).length = buf.length := by
  have signed : (overwrite buf cv (le32 kBpElSignature)).length = buf.length :=
    length_overwrite (by simp only [length_le32]; omega)
  exact ⟨signed, by rw [length_overwrite (by omega), signed]⟩

theorem length_patchedRecord (inside : cv + 4 + buildId.length ≤ buf.length) (record : off + kModuleSize ≤ buf.length) :
    (patchedRecord buf off cv buildId).length = buf.length := by
  obtain ⟨signed, named⟩ := length_writes inside
  unfold kModuleSize at record
  rw [patchedRecord, length_overwrite (by simp only [length_le32, kModCvDataSizeOff]; omega), named]

theorem replaceRecord_eq (inside : cv + 4 + buildId.length ≤ buf.length) (record : off + kModuleSize ≤ buf.length)
    (short : 4 + buildId.length < 2 ^ 32) :
    replaceRecord buf off cv buildId = .ok (some (patchedRecord buf off cv buildId)) := by
  obtain ⟨signed, named⟩ := length_writes inside
  unfold kModuleSize at record
  rw [replaceRecord, writeU32_inside (by omega), ok_bind, store_inside (by omega), ok_bind,
    u32_of_lt (show buildId.length < 2 ^ 32 by omega), u32_of_lt short,
    writeU32_inside (by simp only [kModCvDataSizeOff]; omega), ok_bind, patchedRecord]

theorem patchedRecord_frame (inside : cv + 4 + buildId.length ≤ buf.length) (record : off + kModuleSize ≤ buf.length)
    {k : Nat} (identifier : ¬ InRange k cv (4 + buildId.length)) (size : ¬ InRange k (off + kModCvDataSizeOff) 4) :
    (patchedRecord buf off cv buildId)[k]? = buf[k]? := by
  obtain ⟨signed, named⟩ := length_writes inside
  unfold kModuleSize at record
  unfold InRange at identifier size
  unfold kModCvDataSizeOff at size
  rw [patchedRecord, getElem?_overwrite_outside (by simp only [length_le32, kModCvDataSizeOff]; omega)
      (by simp only [length_le32, kModCvDataSizeOff]; omega),
    getElem?_overwrite_outside (by omega) (by omega),
    getElem?_overwrite_outside (by simp only [length_le32]; omega) (by simp only [length_le32]; omega)]

theorem patchedRecord_written {size : Nat} (inside : cv + 4 + buildId.length ≤ buf.length)
    (record : off + kModuleSize ≤ buf.length) (short : 4 + buildId.length < 2 ^ 32) (fits : 4 + buildId.length ≤ size)
    (apart : Apart cv size (off + kModCvDataSizeOff) 4) :
    word (patchedRecord buf off cv buildId) cv = kBpElSignature ∧
      slice (patchedRecord buf off cv buildId) (cv + 4) buildId.length = buildId ∧
      word (patchedRecord buf off cv buildId) (off + kModCvDataSizeOff) = 4 + buildId.length := by
  obtain ⟨signed, named⟩ := length_writes inside
  have room : off + kModCvDataSizeOff + 4 ≤ buf.length := by
    unfold kModuleSize at record
    unfold kModCvDataSizeOff
    omega
  have frame (k : Nat) (within : InRange k cv size) :
      (patchedRecord buf off cv buildId)[k]? =
        (overwrite (overwrite buf cv (le32 kBpElSignature)) (cv + 4) buildId)[k]? := by
    have outside := apart k within
    unfold InRange at outside
    exact getElem?_overwrite_outside (by simp only [length_le32]; omega) (by simp only [length_le32]; omega)
  refine ⟨?_, ?_, ?_⟩
  · rw [word_congr fun k after before => frame k ⟨after, by omega⟩, word_overwrite_disjoint (by omega) (by omega),
      word_overwrite_self (by omega) (by decide)]
  · rw [slice_congr fun k after before => frame k ⟨by omega, by omega⟩, slice_overwrite_self (by omega)]
  · exact word_overwrite_self (by omega) short

end Record

section Dump
variable {elf : ElfLookup} {buf before : Buffer} {streamRva count : Nat}

theorem record_inside (streamRva : Nat) {i : Nat} (within : i < count) :
    recordOff streamRva i + kModuleSize ≤ streamRva + (4 + count * kModuleSize) := by
  have below : (i + 1) * kModuleSize ≤ count * kModuleSize := Nat.mul_le_mul_right _ within
  rw [Nat.add_mul, Nat.one_mul] at below
  unfold recordOff
  omega

theorem records_apart (streamRva : Nat) {i j : Nat} (earlier : i < j) :
    recordOff streamRva i + kModuleSize ≤ recordOff streamRva j := by
  have below : (i + 1) * kModuleSize ≤ j * kModuleSize := Nat.mul_le_mul_right _ earlier
  rw [Nat.add_mul, Nat.one_mul] at below
  unfold recordOff
  omega

theorem recordOff_eq (formed : LaidOut buf streamRva count) {i : Nat} (within : i < count) :
    modOff streamRva i = recordOff streamRva i := by
  have address := formed.list.address
  have one : 1 * kModuleSize ≤ count * kModuleSize := Nat.mul_le_mul_right _ (by omega)
  unfold modOff recordOff
  rw [u32_of_lt]
  simp only [kModuleSize] at one address
  omega

/-- The buffer agrees with the original outside what patching the records in `done` may change. -/
def Frame (elf : ElfLookup) (buf : Buffer) (streamRva count : Nat) (done : Nat → Prop) (before : Buffer) : Prop :=
  before.length = buf.length ∧ ∀ k, (∀ j < count, done j → ∀ buildId,
    Replaced elf buf (recordOff streamRva j) buildId → ¬ Touched buf (recordOff streamRva j) buildId k) →
    before[k]? = buf[k]?

theorem getU32_congr {first second : Buffer} {off : Nat} (size : first.length = second.length)
    (same : ∀ k, InRange k off 4 → first[k]? = second[k]?) : getU32 first off = getU32 second off := by
  unfold getU32
  rw [size, word_congr fun k after before => same k ⟨after, before⟩]

theorem Touched.place {j k : Nat} (within : j < count) {buildId : List UInt8}
    (replaced : Replaced elf buf (recordOff streamRva j) buildId)
    (touched : Touched buf (recordOff streamRva j) buildId k) :
    InRange k (cvRva buf (recordOff streamRva j)) (cvSize buf (recordOff streamRva j)) ∨
      InRange k (recordOff streamRva j + kModCvDataSizeOff) 4 ∧ InRange k streamRva (4 + count * kModuleSize) := by
  have fits := replaced.fits
  have inside := record_inside streamRva within
  rcases touched with ⟨after, before⟩ | ⟨after, before⟩
  · exact .inl ⟨after, by omega⟩
  · refine .inr ⟨⟨after, before⟩, ?_, ?_⟩
    · unfold recordOff at after
      omega
    · simp only [kModuleSize, kModCvDataSizeOff] at inside before ⊢
      omega

theorem Frame.outside {done : Nat → Prop}
    (frame : Frame elf buf streamRva count done before) {start length k : Nat} (within : InRange k start length)
    (list : Apart streamRva (4 + count * kModuleSize) start length)
    (cv : ∀ i < count, Apart (cvRva buf (recordOff streamRva i)) (cvSize buf (recordOff streamRva i)) start length) :
    before[k]? = buf[k]? := by
  refine frame.2 k fun j bound _ buildId replaced touched => ?_
  rcases touched.place bound replaced with inside | ⟨_, inside⟩
  · exact cv j bound k inside within
  · exact list k inside within

/-- The size fields are behind the header, wherever the list begins. -/
theorem size_field_past_header {streamRva j k : Nat} (field : InRange k (recordOff streamRva j + kModCvDataSizeOff) 4) :
    ¬ InRange k 0 32 := by
  intro inside
  simp only [InRange, recordOff, kModCvDataSizeOff] at field inside
  omega

theorem Frame.header (formed : LaidOut buf streamRva count) {done : Nat → Prop}
    (frame : Frame elf buf streamRva count done before) (off : Nat) (small : off + 4 ≤ 32) : getU32 before off = getU32 buf off := by
  refine getU32_congr frame.1 fun k member => frame.2 k fun j bound _ buildId replaced touched => ?_
  have low : InRange k 0 32 := ⟨Nat.zero_le k, by have upper := member.2; omega⟩
  rcases touched.place bound replaced with range | ⟨field, _⟩
  · exact formed.cv_header j bound k range low
  · exact size_field_past_header field low

/-- Where the signature is, there is no list of modules. -/
theorem LaidOut.list_ne_zero (formed : LaidOut buf streamRva count) : streamRva ≠ 0 := by
  rintro rfl
  have many : count = kMdmpSignature := formed.records.symm.trans formed.signature
  have bounded := formed.bounded
  rw [many] at bounded
  exact absurd bounded (by decide)

structure SameRecord (buf before : Buffer) (off : Nat) : Prop where
  length : before.length = buf.length
  name : nameRva before off = nameRva buf off
  size : cvSize before off = cvSize buf off
  location : cvRva before off = cvRva buf off
  signature : 4 ≤ cvSize buf off → getU32 before (cvRva buf off) = getU32 buf (cvRva buf off)
  text : readModuleName before (nameRva buf off) = .ok (nameText buf (nameRva buf off))

theorem Frame.listed (formed : LaidOut buf streamRva count) {done : Nat → Prop}
    (frame : Frame elf buf streamRva count done before) {k : Nat} (listed : InRange k streamRva (4 + count * kModuleSize))
    (apart : ∀ j < count, done j → ¬ InRange k (recordOff streamRva j + kModCvDataSizeOff) 4) : before[k]? = buf[k]? := by
  refine frame.2 k fun j bound finished buildId replaced touched => ?_
  rcases touched.place bound replaced with range | ⟨field, _⟩
  · exact formed.cv_list j bound k range listed
  · exact apart j bound finished field

/-- A field of record `i` is where no size field is, unless it is the size itself of a record that is done. -/
theorem Frame.field (formed : LaidOut buf streamRva count) {done : Nat → Prop}
    (frame : Frame elf buf streamRva count done before) {i : Nat} (within : i < count) (offset : Nat)
    (small : offset + 4 ≤ kModuleSize)
    (apart : done i → offset + 4 ≤ kModCvDataSizeOff ∨ kModCvDataSizeOff + 4 ≤ offset) :
    getU32 before (recordOff streamRva i + offset) = getU32 buf (recordOff streamRva i + offset) := by
  have inside := record_inside streamRva within
  refine getU32_congr frame.1 fun k member => frame.listed formed ?_ fun j bound finished field => ?_
  · have start : streamRva ≤ recordOff streamRva i := by unfold recordOff; omega
    have upper := member.2
    exact ⟨Nat.le_trans start (Nat.le_trans (Nat.le_add_right _ _) member.1), by omega⟩
  · unfold kModuleSize at small
    unfold kModCvDataSizeOff at apart
    simp only [InRange, kModCvDataSizeOff] at member field
    rcases Nat.lt_trichotomy j i with lower | same | upper
    · have beyond := records_apart streamRva lower
      unfold kModuleSize at beyond
      omega
    · subst same
      have outside := apart finished
      omega
    · have beyond := records_apart streamRva upper
      unfold kModuleSize at beyond
      omega

theorem Frame.record (formed : LaidOut buf streamRva count) {done : Nat → Prop}
    (frame : Frame elf buf streamRva count done before) {i : Nat} (within : i < count) (pending : ¬ done i) :
    SameRecord buf before (recordOff streamRva i) := by
  have field (offset : Nat) (small : offset + 4 ≤ kModuleSize) :
      getU32 before (recordOff streamRva i + offset) = getU32 buf (recordOff streamRva i + offset) :=
    frame.field formed within offset small fun finished => absurd finished pending
  have range (k : Nat) (member : InRange k (cvRva buf (recordOff streamRva i)) (cvSize buf (recordOff streamRva i))) :
      before[k]? = buf[k]? := by
    refine frame.2 k fun j bound finished buildId replaced touched => ?_
    have other : j ≠ i := fun same => pending (same ▸ finished)
    rcases touched.place bound replaced with inside | ⟨_, listed⟩
    · exact formed.cv_apart j bound i within other k inside member
    · exact formed.cv_list i within k member listed
  refine ⟨frame.1, field _ (by decide), field _ (by decide), field _ (by decide), ?_, ?_⟩
  · exact fun large => getU32_congr frame.1 fun k member => range k ⟨member.1, by
      have upper := member.2
      omega⟩
  · by_cases absent : nameRva buf (recordOff streamRva i) = 0
    · rw [absent]
      simp [readModuleName, nameText]
    · have name (k : Nat) (member : InRange k (nameRva buf (recordOff streamRva i))
          (4 + getU32 buf (nameRva buf (recordOff streamRva i)))) : before[k]? = buf[k]? :=
        frame.outside member (formed.list_names i within absent)
          (fun j bound => formed.cv_names j bound i within absent)
      have ascii := formed.names i within absent
      have prefix_same : getU32 before (nameRva buf (recordOff streamRva i)) = getU32 buf (nameRva buf (recordOff streamRva i)) :=
        getU32_congr frame.1 fun k member => name k ⟨member.1, by
          have upper := member.2
          omega⟩
      have body_same : slice before (nameRva buf (recordOff streamRva i) + 4) (getU32 buf (nameRva buf (recordOff streamRva i))) =
          slice buf (nameRva buf (recordOff streamRva i) + 4) (getU32 buf (nameRva buf (recordOff streamRva i))) :=
        slice_congr fun k after upper => name k ⟨by omega, by omega⟩
      have kept : nameText before (nameRva buf (recordOff streamRva i)) = nameText buf (nameRva buf (recordOff streamRva i)) := by
        rw [nameText, nameText, prefix_same, body_same]
      rw [← kept]
      refine readModuleName_ascii fun _ => ⟨⟨?_, ?_⟩, ?_, ?_⟩
      · rw [prefix_same, frame.1]
        exact ascii.located.file
      · rw [prefix_same]
        exact ascii.located.address
      · rw [prefix_same]
        exact ascii.even
      · rw [prefix_same, body_same]
        exact ascii.ascii

theorem record_fits (formed : LaidOut buf streamRva count) {i : Nat} (within : i < count) :
    recordOff streamRva i + kModuleSize ≤ buf.length :=
  Nat.le_trans (record_inside streamRva within) formed.list.file

theorem LaidOut.cv_field (formed : LaidOut buf streamRva count) {i j : Nat} (within : i < count) (bound : j < count) :
    Apart (cvRva buf (recordOff streamRva i)) (cvSize buf (recordOff streamRva i))
      (recordOff streamRva j + kModCvDataSizeOff) 4 := by
  intro k range field
  have inside := record_inside streamRva bound
  refine formed.cv_list i within k range ⟨?_, ?_⟩
  · have after := field.1
    unfold recordOff at after
    omega
  · have upper := field.2
    simp only [kModuleSize, kModCvDataSizeOff] at inside upper ⊢
    omega

theorem considered_iff (formed : LaidOut buf streamRva count) {i : Nat} (within : i < count)
    (same : SameRecord buf before (recordOff streamRva i)) :
    Considered before (recordOff streamRva i) ↔
      4 + kXorHashSize ≤ cvSize buf (recordOff streamRva i) ∧
        getU32 buf (cvRva buf (recordOff streamRva i)) ≠ kBpElSignature := by
  constructor
  · intro considered
    have large := considered.large
    have unsigned := considered.unsigned
    rw [same.size] at large
    rw [same.location, same.signature (by omega)] at unsigned
    exact ⟨large, unsigned⟩
  · intro ⟨large, unsigned⟩
    have range := (formed.ranges i within).file
    refine ⟨?_, ?_, ?_, ?_⟩
    · rw [same.location]
      intro absent
      have header := formed.cv_header i within
      rw [absent] at header
      exact header 0 ⟨Nat.le_refl _, by omega⟩ ⟨Nat.le_refl _, by omega⟩
    · rw [same.size]
      exact large
    · rw [same.location, same.size, same.length]
      exact Nat.le_trans (u32_le _) range
    · rw [same.location, same.signature (by omega)]
      exact unsigned

theorem chosenId_iff {name : Text} {size : Nat} {buildId : List UInt8} (lookup : (elf name).length + 4 < 2 ^ 32) :
    chosenId elf name size = some buildId ↔
      name ≠ [] ∧ elf name = buildId ∧ buildId ≠ [] ∧ 4 + buildId.length ≤ size := by
  have exact_size : u32 (4 + u32 (elf name).length) = 4 + (elf name).length := by
    rw [u32_of_lt (show (elf name).length < 2 ^ 32 by omega), u32_of_lt (by omega)]
  unfold chosenId
  rw [exact_size]
  constructor
  · intro chosen
    split at chosen
    next => cases chosen
    next named =>
      split at chosen
      next => cases chosen
      next found =>
        split at chosen
        next => cases chosen
        next fits =>
          cases chosen
          exact ⟨named, rfl, found, Nat.le_of_not_lt fits⟩
  · intro ⟨named, found, nonempty, fits⟩
    subst found
    rw [if_neg named, if_neg nonempty, if_neg (Nat.not_lt.mpr fits)]

theorem turn_replaced (formed : LaidOut buf streamRva count) (lookup : ∀ name, (elf name).length + 4 < 2 ^ 32)
    {i : Nat} (within : i < count) (same : SameRecord buf before (recordOff streamRva i)) {buildId : List UInt8}
    (replaced : Replaced elf buf (recordOff streamRva i) buildId) :
    patchModule elf before (recordOff streamRva i) =
      .ok (some (patchedRecord before (recordOff streamRva i) (cvRva buf (recordOff streamRva i)) buildId)) := by
  have range := (formed.ranges i within).file
  have record := record_fits formed within
  have fits := replaced.fits
  have small := lookup (nameText buf (nameRva buf (recordOff streamRva i)))
  have chosen := (chosenId_iff small).mpr ⟨replaced.named, replaced.found, replaced.nonempty, fits⟩
  rw [replaced.found] at small
  rw [patchModule_considered ((considered_iff formed within same).mpr ⟨replaced.large, replaced.unsigned⟩),
    same.name, same.text, ok_bind, same.size, same.location]
  simp only [chosen]
  rw [← same.length] at range record
  exact replaceRecord_eq (by omega) record (by omega)

theorem turn_kept (formed : LaidOut buf streamRva count) (lookup : ∀ name, (elf name).length + 4 < 2 ^ 32)
    {i : Nat} (within : i < count) (same : SameRecord buf before (recordOff streamRva i))
    (kept : ∀ buildId, ¬ Replaced elf buf (recordOff streamRva i) buildId) :
    patchModule elf before (recordOff streamRva i) = .ok none := by
  by_cases considered : Considered before (recordOff streamRva i)
  · rw [patchModule_considered considered, same.name, same.text, ok_bind, same.size]
    obtain ⟨large, unsigned⟩ := (considered_iff formed within same).mp considered
    cases chosen : chosenId elf (nameText buf (nameRva buf (recordOff streamRva i))) (cvSize buf (recordOff streamRva i)) with
    | none => rfl
    | some buildId =>
      obtain ⟨named, found, nonempty, fits⟩ := (chosenId_iff (lookup _)).mp chosen
      exact absurd ⟨unsigned, large, named, found, nonempty, fits⟩ (kept buildId)
  · exact patchModule_skipped considered

/-- What holds when the loop comes to record `i`. -/
structure Progress (elf : ElfLookup) (buf : Buffer) (streamRva count i : Nat) (before : Buffer) : Prop where
  frame : Frame elf buf streamRva count (· < i) before
  written : ∀ j < count, j < i → ∀ buildId, Replaced elf buf (recordOff streamRva j) buildId →
    Written buf before (recordOff streamRva j) buildId

theorem Replaced.unique {off : Nat} {first second : List UInt8} (one : Replaced elf buf off first)
    (two : Replaced elf buf off second) : first = second :=
  one.found.symm.trans two.found

theorem Written.survives (formed : LaidOut buf streamRva count) {i j : Nat} (within : i < count) (bound : j < count)
    (earlier : j < i) {out : Buffer} {buildId other : List UInt8} (size : out.length = before.length)
    (replaced : Replaced elf buf (recordOff streamRva j) buildId) (turn : Replaced elf buf (recordOff streamRva i) other)
    (outside : ∀ k, ¬ Touched buf (recordOff streamRva i) other k → out[k]? = before[k]?)
    (written : Written buf before (recordOff streamRva j) buildId) : Written buf out (recordOff streamRva j) buildId := by
  have fits := replaced.fits
  have room := turn.fits
  have range (k : Nat) (member : InRange k (cvRva buf (recordOff streamRva j)) (4 + buildId.length)) : out[k]? = before[k]? := by
    have whole : InRange k (cvRva buf (recordOff streamRva j)) (cvSize buf (recordOff streamRva j)) :=
      ⟨member.1, by have upper := member.2; omega⟩
    refine outside k fun touched => ?_
    rcases touched with ⟨after, upper⟩ | field
    · exact formed.cv_apart j bound i within (by omega) k whole ⟨after, by omega⟩
    · exact formed.cv_field bound within k whole field
  have field (k : Nat) (member : InRange k (recordOff streamRva j + kModCvDataSizeOff) 4) : out[k]? = before[k]? := by
    refine outside k fun touched => ?_
    rcases touched with ⟨after, upper⟩ | other_field
    · exact formed.cv_field within bound k ⟨after, by omega⟩ member
    · have apart := records_apart streamRva earlier
      simp only [InRange, kModuleSize, kModCvDataSizeOff] at member other_field apart
      omega
  refine ⟨?_, ?_, ?_⟩
  · rw [getU32_congr size fun k member => range k ⟨member.1, by have upper := member.2; omega⟩]
    exact written.signature
  · rw [slice_congr fun k after upper => range k ⟨by omega, by omega⟩]
    exact written.identifier
  · rw [getU32_congr size field]
    exact written.size

theorem Progress.turn (formed : LaidOut buf streamRva count) (lookup : ∀ name, (elf name).length + 4 < 2 ^ 32)
    {i : Nat} (within : i < count) (progress : Progress elf buf streamRva count i before) :
    ∃ step, patchModule elf before (recordOff streamRva i) = .ok step ∧
      Progress elf buf streamRva count (i + 1) (step.getD before) := by
  have same := progress.frame.record formed within (Nat.lt_irrefl i)
  by_cases turn : ∃ buildId, Replaced elf buf (recordOff streamRva i) buildId
  · obtain ⟨buildId, replaced⟩ := turn
    have range := (formed.ranges i within).file
    have record := record_fits formed within
    have fits := replaced.fits
    have small := lookup (nameText buf (nameRva buf (recordOff streamRva i)))
    rw [replaced.found] at small
    rw [← same.length] at range record
    refine ⟨_, turn_replaced formed lookup within same replaced, ?_⟩
    rw [Option.getD_some]
    have size : (patchedRecord before (recordOff streamRva i) (cvRva buf (recordOff streamRva i)) buildId).length = before.length :=
      length_patchedRecord (by omega) record
    have outside (k : Nat) (untouched : ¬ Touched buf (recordOff streamRva i) buildId k) :
        (patchedRecord before (recordOff streamRva i) (cvRva buf (recordOff streamRva i)) buildId)[k]? = before[k]? :=
      patchedRecord_frame (by omega) record (fun range => untouched (.inl range)) (fun field => untouched (.inr field))
    refine ⟨⟨size.trans progress.frame.1, fun k untouched => ?_⟩, fun j bound earlier other again => ?_⟩
    · rw [outside k (untouched i within (Nat.lt_succ_self i) buildId replaced)]
      exact progress.frame.2 k fun j bound earlier => untouched j bound (Nat.lt_succ_of_lt earlier)
    · rcases Nat.lt_succ_iff_lt_or_eq.mp earlier with lower | here
      · exact (progress.written j bound lower other again).survives formed within bound lower size again replaced outside
      · subst here
        obtain rfl := again.unique replaced
        obtain ⟨signature, identifier, length⟩ := patchedRecord_written (by omega) record (by omega) fits
          (formed.cv_field within within)
        refine ⟨?_, identifier, ?_⟩
        · rw [getU32_inside (by omega)]
          exact signature
        · rw [getU32_inside (by unfold kModuleSize at record; unfold kModCvDataSizeOff; omega)]
          exact length
  · have kept (buildId : List UInt8) : ¬ Replaced elf buf (recordOff streamRva i) buildId := fun replaced => turn ⟨_, replaced⟩
    refine ⟨none, turn_kept formed lookup within same kept, ⟨progress.frame.1, fun k untouched => ?_⟩, ?_⟩
    · exact progress.frame.2 k fun j bound earlier => untouched j bound (Nat.lt_succ_of_lt earlier)
    · intro j bound earlier buildId replaced
      rcases Nat.lt_succ_iff_lt_or_eq.mp earlier with lower | here
      · exact progress.written j bound lower buildId replaced
      · subst here
        exact absurd replaced (kept buildId)

theorem Progress.run (formed : LaidOut buf streamRva count) (lookup : ∀ name, (elf name).length + 4 < 2 ^ 32)
    {remaining i : Nat} (patched : Nat) (whole : i + remaining = count) (progress : Progress elf buf streamRva count i before) :
    ∃ out total, patchModules elf streamRva remaining i before patched = .ok (out, total) ∧
      Progress elf buf streamRva count count out := by
  induction remaining generalizing i patched before with
  | zero =>
    have done : i = count := whole
    exact ⟨before, patched, rfl, done ▸ progress⟩
  | succ remaining ih =>
    have within : i < count := by omega
    obtain ⟨step, turn, next⟩ := progress.turn formed lookup within
    have inside : modOff streamRva i + kModuleSize ≤ before.length := by
      rw [recordOff_eq formed within, progress.frame.1]
      exact record_fits formed within
    rw [← recordOff_eq formed within] at turn
    rw [patchModules_step inside turn]
    exact ih _ (by omega) next

theorem findModuleStream_first {dirRva remaining i entry : Nat} (after : i ≤ entry) (within : entry < i + remaining)
    (inside : dirRva + (i + remaining) * kDirEntrySize ≤ buf.length)
    (found : getU32 buf (dirRva + entry * kDirEntrySize) = kModuleListStream)
    (location : getU32 buf (dirRva + entry * kDirEntrySize + 8) = streamRva)
    (earlier : ∀ e < entry, getU32 buf (dirRva + e * kDirEntrySize) ≠ kModuleListStream) :
    findModuleStream buf dirRva remaining i = .ok streamRva := by
  induction remaining generalizing i with
  | zero => omega
  | succ remaining ih =>
    have fits : ¬ dirRva + i * kDirEntrySize + kDirEntrySize > buf.length := by
      have below : (i + 1) * kDirEntrySize ≤ (i + (remaining + 1)) * kDirEntrySize := Nat.mul_le_mul_right _ (by omega)
      rw [Nat.add_mul, Nat.one_mul] at below
      omega
    simp only [findModuleStream, readU32_eq, ok_bind]
    rw [if_neg fits]
    rcases Nat.eq_or_lt_of_le after with here | later
    · subst here
      rw [if_pos found, location]
    · rw [if_neg (earlier i later)]
      exact ih later (by omega) (by rwa [show i + 1 + remaining = i + (remaining + 1) by omega])

theorem Frame.moduleList (formed : LaidOut buf streamRva count) {done : Nat → Prop}
    (frame : Frame elf buf streamRva count done before) : ModuleList before streamRva count := by
  have size := frame.1
  have directory (off : Nat) (after : getU32 buf 12 ≤ off)
      (upper : off + 4 ≤ getU32 buf 12 + getU32 buf 8 * kDirEntrySize) : getU32 before off = getU32 buf off :=
    getU32_congr size fun k member => frame.outside ⟨Nat.le_trans after member.1, Nat.lt_of_lt_of_le member.2 upper⟩
      formed.list_directory formed.cv_directory
  have entries (e : Nat) (within : e < getU32 buf 8) (offset : Nat) (small : offset + 4 ≤ kDirEntrySize) :
      getU32 before (getU32 buf 12 + e * kDirEntrySize + offset) = getU32 buf (getU32 buf 12 + e * kDirEntrySize + offset) := by
    have below : (e + 1) * kDirEntrySize ≤ getU32 buf 8 * kDirEntrySize := Nat.mul_le_mul_right _ within
    rw [Nat.add_mul, Nat.one_mul] at below
    exact directory _ (by omega) (by omega)
  obtain ⟨entry, within, found, location, earlier⟩ := formed.listed
  have room := formed.header
  have list := formed.list.file
  refine ⟨by omega, ?_, ?_, formed.list_ne_zero, ?_, ?_, formed.bounded⟩
  · rw [frame.header formed 0 (by decide)]
    exact formed.signature
  · rw [frame.header formed 12 (by decide), frame.header formed 8 (by decide)]
    refine findModuleStream_first (Nat.zero_le entry) (by omega) ?_ ?_ ?_ fun e before_entry => ?_
    · rw [Nat.zero_add, size]
      exact formed.directory
    · exact (entries entry within 0 (by decide)).trans found
    · exact (entries entry within 8 (by decide)).trans location
    · rw [show getU32 before (getU32 buf 12 + e * kDirEntrySize) = getU32 buf (getU32 buf 12 + e * kDirEntrySize) from
        entries e (by omega) 0 (by decide)]
      exact earlier e before_entry
  · exact Nat.le_trans (u32_le _) (by omega)
  · rw [← formed.records]
    refine getU32_congr size fun k member => frame.listed formed ⟨member.1, by have upper := member.2; omega⟩ ?_
    intro j bound _ field
    simp only [InRange, recordOff, kModCvDataSizeOff] at member field
    omega

/-- On a patched dump every turn of a second run skips its record. -/
theorem Progress.settled (formed : LaidOut buf streamRva count) (lookup : ∀ name, (elf name).length + 4 < 2 ^ 32)
    {out : Buffer} (progress : Progress elf buf streamRva count count out) {i : Nat} (within : i < count) :
    patchModule elf out (recordOff streamRva i) = .ok none := by
  by_cases turn : ∃ buildId, Replaced elf buf (recordOff streamRva i) buildId
  · obtain ⟨buildId, replaced⟩ := turn
    refine patchModule_skipped fun considered => considered.unsigned ?_
    have location : cvRva out (recordOff streamRva i) = cvRva buf (recordOff streamRva i) :=
      progress.frame.field formed within kModCvRvaOff (by decide) fun _ => .inr (by decide)
    rw [location]
    exact (progress.written i within within buildId replaced).signature
  · -- Nothing was written for this record, so it still reads as in the original.
    have frame : Frame elf buf streamRva count (fun j => j < count ∧ j ≠ i) out := by
      refine ⟨progress.frame.1, fun k untouched => progress.frame.2 k fun j bound earlier buildId replaced => ?_⟩
      refine untouched j bound ⟨earlier, fun same => turn ⟨buildId, ?_⟩⟩ buildId replaced
      exact same ▸ replaced
    exact turn_kept formed lookup within (frame.record formed within fun done => done.2 rfl) fun buildId replaced =>
      turn ⟨buildId, replaced⟩

theorem patchModules_idle {remaining i patched : Nat} (size : i + remaining ≤ count)
    (idle : ∀ j < count, patchModule elf buf (modOff streamRva j) = .ok none) :
    patchModules elf streamRva remaining i buf patched = .ok (buf, patched) := by
  induction remaining generalizing i with
  | zero => rfl
  | succ remaining ih =>
    by_cases inside : modOff streamRva i + kModuleSize ≤ buf.length
    · rw [patchModules_step inside (idle i (by omega))]
      exact ih (by omega)
    · exact patchModules_break (by omega)

theorem rewriteFile_whole {faults : FileFaults} {path : ByteString} {file out : Buffer} {patched : Nat}
    (reopens : faults.reopens = true) (accepts : out.length ≤ faults.accepts) (kept : patched = 0 → out = file) :
    rewriteFile faults path file (some (out, patched)) = (.ok (), out) := by
  by_cases none : patched = 0
  · simp only [rewriteFile, none, if_true, kept none]
  · have full : ¬ faults.accepts < out.length - faults.buffered := by omega
    simp only [rewriteFile, none, reopens, full, not_true_eq_false, if_false, List.take_of_length_le accepts]

theorem patchModules_unchanged {remaining i patched : Nat} {out : Buffer}
    (ended : patchModules elf streamRva remaining i buf patched = .ok (out, patched)) : out = buf := by
  induction remaining generalizing i buf with
  | zero =>
    cases ended
    rfl
  | succ remaining ih =>
    by_cases inside : modOff streamRva i + kModuleSize ≤ buf.length
    · obtain ⟨step, turn⟩ := safe_turn inside ⟨_, ended⟩
      rw [patchModules_step inside turn] at ended
      cases step with
      | none => exact ih ended
      | some next =>
        have more := (length_patchModules ended).2
        simp only [Option.toList_some, List.length_singleton] at more
        omega
    · rw [patchModules_break (by omega)] at ended
      cases ended
      rfl

end Dump

/-- What patching is for: every record that lacks its build ID gets it, and nothing else changes. -/
structure Patched (elf : ElfLookup) (file : Buffer) (streamRva count : Nat) (out : Buffer) : Prop where
  length : out.length = file.length
  written : ∀ i < count, ∀ buildId, Replaced elf file (recordOff streamRva i) buildId →
    Written file out (recordOff streamRva i) buildId
  frame : ∀ k, (∀ i < count, ∀ buildId, Replaced elf file (recordOff streamRva i) buildId →
    ¬ Touched file (recordOff streamRva i) buildId k) → out[k]? = file[k]?

/-- The patcher patches a dump that is laid out without overlaps, and a second
run finds nothing left to do. -/
theorem patches_once {elf : ElfLookup} {faults : FileFaults} {file : Buffer} {streamRva count : Nat} (path : ByteString)
    (formed : LaidOut file streamRva count) (lookup : ∀ name, (elf name).length + 4 < 2 ^ 32)
    (opens : faults.opens = true) (reads : faults.reads = true) (reopens : faults.reopens = true)
    (accepts : file.length ≤ faults.accepts) :
    ∃ out, patchMissingBuildIds elf faults path file = .ok (.ok (), out) ∧ Patched elf file streamRva count out ∧
      ∀ again : FileFaults, again.opens = true → again.reads = true →
        patchMissingBuildIds elf again path out = .ok (.ok (), out) := by
  have start : Progress elf file streamRva count 0 file :=
    ⟨⟨rfl, fun _ _ => rfl⟩, fun j _ earlier => absurd earlier (Nat.not_lt_zero j)⟩
  obtain ⟨out, total, ended, progress⟩ := start.run formed lookup 0 (Nat.zero_add count)
  have first : patchMissingBuildIds elf faults path file = .ok (.ok (), out) := by
    rw [patchMissingBuildIds_loaded opens reads, patchLoaded_list (start.frame.moduleList formed), ended, ok_bind, ok_bind]
    rw [rewriteFile_whole reopens (by rw [progress.frame.1]; exact accepts)]
    intro none
    subst none
    exact patchModules_unchanged ended
  have second : patchModules elf streamRva count 0 out 0 = .ok (out, 0) := by
    refine patchModules_idle (Nat.le_of_eq (Nat.zero_add count)) fun j within => ?_
    rw [recordOff_eq formed within]
    exact progress.settled formed lookup within
  refine ⟨out, first, ⟨progress.frame.1, fun i within buildId replaced => ?_, fun k untouched => ?_⟩, fun again reopened reread => ?_⟩
  · exact progress.written i within within buildId replaced
  · exact progress.frame.2 k fun j within _ => untouched j within
  · rw [patchMissingBuildIds_loaded reopened reread, patchLoaded_list (progress.frame.moduleList formed), second, ok_bind,
      ok_bind]
    rfl

/-- Two modules without build IDs: "a" with room for 20 bytes and "b" with 4 spare ones. -/
def twoModules : Buffer :=
  dumpOf [(264, 24, 276), (270, 20, 300)] (le32 2 ++ [97, 0] ++ le32 2 ++ [98, 0] ++ List.replicate 44 1)

def identified : ElfLookup := fun name => if name = ['\x14'] then [] else List.replicate 16 7

theorem length_identified (name : Text) : (identified name).length + 4 < 2 ^ 32 := by
  unfold identified
  split
  next => decide
  next => decide

theorem twoModules_laidOut : LaidOut twoModules 44 2 := by
  refine ⟨⟨?_, ?_, ?_, ?_, ?_, ?_, ?_, ?_, ?_, ?_, ?_, ?_, ?_, ?_⟩, ?_, ?_⟩ <;> decide +kernel

theorem twoModules_patched :
    ∃ out, patchMissingBuildIds identified healthy (ascii "two.dmp") twoModules = .ok (.ok (), out) ∧
      Patched identified twoModules 44 2 out ∧ ∀ again : FileFaults, again.opens = true → again.reads = true →
        patchMissingBuildIds identified again (ascii "two.dmp") out = .ok (.ok (), out) :=
  patches_once (ascii "two.dmp") twoModules_laidOut length_identified rfl rfl rfl (by decide +kernel)

/-- The second name is the record field at 118 with the size of the first module
as its last character: 24 at first, 20 once the first module is patched. -/
def sharedField : Buffer :=
  overwrite (dumpOf [(264, 24, 270), (118, 20, 294)] (le32 2 ++ [97, 0] ++ List.replicate 44 1)) 118 (le32 4)

/-- With a name inside the module list, patching the first module hides the
second one from the rest of the loop. -/
theorem shared_field_not_patched :
    WellFormed sharedField 44 2 ∧ (∀ name, (identified name).length + 4 < 2 ^ 32) ∧
      ¬ ∃ out, patchMissingBuildIds identified healthy (ascii "shared.dmp") sharedField = .ok (.ok (), out) ∧
        Patched identified sharedField 44 2 out := by
  refine ⟨⟨?_, ?_, ?_, ?_, ?_, ?_, ?_, ?_, ?_, ?_, ?_, ?_, ?_, ?_⟩, length_identified, fun ⟨out, ran, patched⟩ => ?_⟩
  iterate 14 · decide +kernel
  · have replaced : Replaced identified sharedField (recordOff 44 1) (List.replicate 16 7) := by
      refine ⟨?_, ?_, ?_, ?_, ?_, ?_⟩ <;> decide +kernel
    have signature := (patched.written 1 (by decide) _ replaced).signature
    have unsigned : (patchMissingBuildIds identified healthy (ascii "shared.dmp") sharedField).toOption.map
        (fun result => getU32 result.2 (cvRva sharedField (recordOff 44 1))) = some 0x01010101 := by decide +kernel
    rw [ran] at unsigned
    simp only [Except.toOption, Option.map_some, signature] at unsigned
    cases unsigned

end Crashomon.Proofs.PatcherFrame
