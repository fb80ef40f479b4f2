import Crashomon.Proofs.PatchdmpRun

/-! Patchers one after the other on a dump that is laid out without overlaps: the daemon, and the offline tool with its
overrides. Each record gets the build ID of the first of them that has one for it, and keeps it. -/

namespace Crashomon.Proofs.PatcherRuns
open Bytes Python Daemon.MinidumpPatcher PatcherSteps PatcherBounds PatcherFile PatcherFrame PatcherAgreement PatchdmpSteps

/-- A record reads the same in both buffers: its fields, its CodeView bytes and its name. -/
structure SameReads (buf before : Buffer) (off : Nat) : Prop where
  length : before.length = buf.length
  fields : ∀ k, InRange k off kModuleSize → before[k]? = buf[k]?
  view : ∀ k, InRange k (cvRva buf off) (cvSize buf off) → before[k]? = buf[k]?
  name : nameRva buf off ≠ 0 → ∀ k, InRange k (nameRva buf off) (4 + getU32 buf (nameRva buf off)) → before[k]? = buf[k]?

namespace SameReads
variable {buf before : Buffer} {off : Nat}

theorem field (same : SameReads buf before off) {offset : Nat} (small : offset + 4 ≤ kModuleSize) :
    getU32 before (off + offset) = getU32 buf (off + offset) := by
  refine getU32_congr same.length fun k member => same.fields k ⟨?_, ?_⟩
  · exact Nat.le_trans (Nat.le_add_right off offset) member.1
  · have upper := member.2
    omega

theorem nameRva_eq (same : SameReads buf before off) : nameRva before off = nameRva buf off := same.field (by decide)

theorem cvSize_eq (same : SameReads buf before off) : cvSize before off = cvSize buf off := same.field (by decide)

theorem cvRva_eq (same : SameReads buf before off) : cvRva before off = cvRva buf off := same.field (by decide)

theorem signature_eq (same : SameReads buf before off) (large : 4 ≤ cvSize buf off) :
    getU32 before (cvRva buf off) = getU32 buf (cvRva buf off) :=
  getU32_congr same.length fun k member => same.view k ⟨member.1, by
    have upper := member.2
    omega⟩

theorem nameLength_eq (same : SameReads buf before off) (named : nameRva buf off ≠ 0) :
    getU32 before (nameRva buf off) = getU32 buf (nameRva buf off) :=
  getU32_congr same.length fun k member => same.name named k ⟨member.1, by
    have upper := member.2
    omega⟩

theorem nameBytes_eq (same : SameReads buf before off) (named : nameRva buf off ≠ 0) :
    slice before (nameRva buf off + 4) (getU32 buf (nameRva buf off)) = slice buf (nameRva buf off + 4) (getU32 buf (nameRva buf off)) :=
  slice_congr fun k after upper => same.name named k ⟨by omega, by omega⟩

theorem nameText_eq (same : SameReads buf before off) : nameText before (nameRva buf off) = nameText buf (nameRva buf off) := by
  by_cases named : nameRva buf off = 0
  · rw [nameText, nameText, if_pos named, if_pos named]
  · rw [nameText, nameText, same.nameLength_eq named, same.nameBytes_eq named]

theorem toolName_eq (same : SameReads buf before off) : toolName before (nameRva buf off) = toolName buf (nameRva buf off) := by
  by_cases named : nameRva buf off = 0
  · rw [toolName, toolName, if_neg fun read => read.present named, if_neg fun read => read.present named]
  · have read : ToolName before (nameRva buf off) ↔ ToolName buf (nameRva buf off) := by
      have equal := same.nameLength_eq named
      constructor
      · rintro ⟨present, nonempty, fits⟩
        rw [equal] at nonempty fits
        exact ⟨present, nonempty, same.length ▸ fits⟩
      · rintro ⟨present, nonempty, fits⟩
        rw [← equal] at nonempty fits
        exact ⟨present, nonempty, same.length ▸ fits⟩
    rw [toolName, toolName, same.nameLength_eq named, same.nameBytes_eq named]
    simp only [read]

theorem recordOf_eq (same : SameReads buf before off) : recordOf before off = recordOf buf off := by
  have signature : (if cvRva buf off ≠ 0 ∧ 4 ≤ cvSize buf off then getU32 before (cvRva buf off) else 0) =
      if cvRva buf off ≠ 0 ∧ 4 ≤ cvSize buf off then getU32 buf (cvRva buf off) else 0 := by
    split
    next recorded => exact same.signature_eq recorded.2
    next => rfl
  rw [recordOf, recordOf, same.nameRva_eq, same.cvRva_eq, same.cvSize_eq, same.toolName_eq, signature]

end SameReads

/-- What a patcher puts into a record: it fits, the record has none yet, and it depends on nothing but the record. -/
structure Rule where
  answer : Buffer → (off : Nat) → Option (List UInt8)
  fits : ∀ {buf off buildId}, answer buf off = some buildId → 4 + buildId.length ≤ cvSize buf off
  unsigned : ∀ {buf off buildId}, answer buf off = some buildId → getU32 buf (cvRva buf off) ≠ kBpElSignature
  same : ∀ {buf before off}, SameReads buf before off → answer before off = answer buf off

/-- The daemon's rule. -/
def daemonRule (elf : ElfLookup) (lookup : ∀ name, (elf name).length + 4 < 2 ^ 32) : Rule where
  answer buf off :=
    if 4 + kXorHashSize ≤ cvSize buf off ∧ getU32 buf (cvRva buf off) ≠ kBpElSignature then
      chosenId elf (nameText buf (nameRva buf off)) (cvSize buf off)
    else none
  fits {buf off buildId} answered := by
    split at answered
    next => exact ((chosenId_iff (lookup _)).mp answered).2.2.2
    next => cases answered
  unsigned {buf off buildId} answered := by
    split at answered
    next considered => exact considered.2
    next => cases answered
  same {buf before off} same := by
    rw [same.cvSize_eq, same.cvRva_eq, same.nameRva_eq, same.nameText_eq]
    by_cases large : 4 + kXorHashSize ≤ cvSize buf off
    · rw [same.signature_eq (by omega)]
    · rw [if_neg fun considered => large considered.1, if_neg fun considered => large considered.1]

/-- The rule of the offline tool. -/
def toolRule (files : Tools.Patchdmp.Files) (sysroot : Option PurePath) (overrides : List (Text × List UInt8)) : Rule where
  answer buf off := pickedId files sysroot overrides (recordOf buf off)
  fits answered := (pickedId_eq_some.mp answered).2.2
  unsigned {buf off buildId} answered := by
    obtain ⟨unsigned, present, large⟩ := (pickedId_eq_some.mp answered).1
    have signature : (recordOf buf off).cvSig = getU32 buf (cvRva buf off) := if_pos ⟨present, large⟩
    rw [← signature]
    exact unsigned
  same same := by rw [same.recordOf_eq]

/-- One patcher after the other. -/
def Rule.orElse (first second : Rule) : Rule where
  answer buf off := (first.answer buf off).or (second.answer buf off)
  fits answered := (Option.or_eq_some_iff.mp answered).elim first.fits fun later => second.fits later.2
  unsigned answered := (Option.or_eq_some_iff.mp answered).elim first.unsigned fun later => second.unsigned later.2
  same same := by rw [first.same same, second.same same]

def Rule.none : Rule where
  answer _ _ := .none
  fits answered := by cases answered
  unsigned answered := by cases answered
  same _ := rfl

/-- The rule has been applied to every record of the dump, and nothing else has changed. -/
structure Applied (rule : Rule) (buf : Buffer) (streamRva count : Nat) (out : Buffer) : Prop where
  length : out.length = buf.length
  written : ∀ i < count, ∀ buildId, rule.answer buf (recordOff streamRva i) = some buildId →
    Written buf out (recordOff streamRva i) buildId
  frame : ∀ k, (∀ i < count, ∀ buildId, rule.answer buf (recordOff streamRva i) = some buildId →
    ¬ Touched buf (recordOff streamRva i) buildId k) → out[k]? = buf[k]?

section Applied
variable {rule : Rule} {buf out : Buffer} {streamRva count : Nat}

theorem touched_place {j k : Nat} (within : j < count) {buildId : List UInt8}
    (fits : 4 + buildId.length ≤ cvSize buf (recordOff streamRva j)) (touched : Touched buf (recordOff streamRva j) buildId k) :
    InRange k (cvRva buf (recordOff streamRva j)) (cvSize buf (recordOff streamRva j)) ∨
      InRange k (recordOff streamRva j + kModCvDataSizeOff) 4 ∧ InRange k streamRva (4 + count * kModuleSize) := by
  have inside := record_inside streamRva within
  rcases touched with ⟨after, before⟩ | ⟨after, before⟩
  · exact .inl ⟨after, by omega⟩
  · refine .inr ⟨⟨after, before⟩, ?_, ?_⟩
    · unfold recordOff at after
      omega
    · simp only [kModuleSize, kModCvDataSizeOff] at inside before ⊢
      omega

theorem Applied.outside (applied : Applied rule buf streamRva count out) {start length k : Nat} (within : InRange k start length)
    (list : Apart streamRva (4 + count * kModuleSize) start length)
    (cv : ∀ i < count, Apart (cvRva buf (recordOff streamRva i)) (cvSize buf (recordOff streamRva i)) start length) :
    out[k]? = buf[k]? := by
  refine applied.frame k fun j bound buildId answered touched => ?_
  rcases touched_place bound (rule.fits answered) touched with inside | ⟨_, inside⟩
  · exact cv j bound k inside within
  · exact list k inside within

/-- In the module list only the size fields of patched records change. -/
theorem Applied.listed (formed : LaidOut buf streamRva count) (applied : Applied rule buf streamRva count out) {k : Nat}
    (listed : InRange k streamRva (4 + count * kModuleSize))
    (apart : ∀ j < count, rule.answer buf (recordOff streamRva j) ≠ none → ¬ InRange k (recordOff streamRva j + kModCvDataSizeOff) 4) :
    out[k]? = buf[k]? := by
  refine applied.frame k fun j bound buildId answered touched => ?_
  rcases touched_place bound (rule.fits answered) touched with range | ⟨field, _⟩
  · exact formed.cv_list j bound k range listed
  · refine apart j bound ?_ field
    rw [answered]
    exact Option.some_ne_none buildId

/-- A position in a record, unless it is in the size field of one that is patched. -/
theorem Applied.position (formed : LaidOut buf streamRva count) (applied : Applied rule buf streamRva count out) {i k : Nat}
    (within : i < count) (member : InRange k (recordOff streamRva i) kModuleSize)
    (apart : rule.answer buf (recordOff streamRva i) ≠ none → ¬ InRange k (recordOff streamRva i + kModCvDataSizeOff) 4) :
    out[k]? = buf[k]? := by
  have inside := record_inside streamRva within
  refine applied.listed formed ⟨?_, ?_⟩ fun j bound answered field => ?_
  · have start : streamRva ≤ recordOff streamRva i := by unfold recordOff; omega
    exact Nat.le_trans start member.1
  · have upper := member.2
    omega
  · simp only [InRange, kModCvDataSizeOff, kModuleSize] at member field
    rcases Nat.lt_trichotomy j i with lower | same | upper
    · have beyond := records_apart streamRva lower
      unfold kModuleSize at beyond
      omega
    · subst same
      exact apart answered (by simp only [InRange, kModCvDataSizeOff]; omega)
    · have beyond := records_apart streamRva upper
      unfold kModuleSize at beyond
      omega

theorem Applied.field (formed : LaidOut buf streamRva count) (applied : Applied rule buf streamRva count out) {i : Nat}
    (within : i < count) (offset : Nat) (small : offset + 4 ≤ kModuleSize)
    (apart : rule.answer buf (recordOff streamRva i) ≠ none → offset + 4 ≤ kModCvDataSizeOff ∨ kModCvDataSizeOff + 4 ≤ offset) :
    getU32 out (recordOff streamRva i + offset) = getU32 buf (recordOff streamRva i + offset) := by
  refine getU32_congr applied.length fun k member => applied.position formed within ⟨?_, ?_⟩ fun answered field => ?_
  · exact Nat.le_trans (Nat.le_add_right _ offset) member.1
  · have upper := member.2
    omega
  · have outside := apart answered
    simp only [InRange] at member field
    omega

theorem Applied.cvRva_eq (formed : LaidOut buf streamRva count) (applied : Applied rule buf streamRva count out) {i : Nat}
    (within : i < count) : cvRva out (recordOff streamRva i) = cvRva buf (recordOff streamRva i) :=
  applied.field formed within kModCvRvaOff (by decide) fun _ => .inr (by decide)

theorem Applied.nameRva_eq (formed : LaidOut buf streamRva count) (applied : Applied rule buf streamRva count out) {i : Nat}
    (within : i < count) : nameRva out (recordOff streamRva i) = nameRva buf (recordOff streamRva i) :=
  applied.field formed within kModNameRvaOff (by decide) fun _ => .inl (by decide)

theorem Applied.cvSize_le (formed : LaidOut buf streamRva count) (applied : Applied rule buf streamRva count out) {i : Nat}
    (within : i < count) : cvSize out (recordOff streamRva i) ≤ cvSize buf (recordOff streamRva i) := by
  cases answered : rule.answer buf (recordOff streamRva i) with
  | none => exact Nat.le_of_eq (applied.field formed within kModCvDataSizeOff (by decide) fun some => absurd answered some)
  | some buildId =>
    have size : cvSize out (recordOff streamRva i) = 4 + buildId.length := (applied.written i within buildId answered).size
    rw [size]
    exact rule.fits answered

/-- The name of a record is left as it is. -/
theorem Applied.name (formed : LaidOut buf streamRva count) (applied : Applied rule buf streamRva count out) {i : Nat}
    (within : i < count) (named : nameRva buf (recordOff streamRva i) ≠ 0) {k : Nat}
    (member : InRange k (nameRva buf (recordOff streamRva i)) (4 + getU32 buf (nameRva buf (recordOff streamRva i)))) :
    out[k]? = buf[k]? :=
  applied.outside member (formed.list_names i within named) fun j bound => formed.cv_names j bound i within named

/-- The CodeView bytes of another record are too. -/
theorem Applied.view (formed : LaidOut buf streamRva count) (applied : Applied rule buf streamRva count out) {i : Nat}
    (within : i < count) (unanswered : rule.answer buf (recordOff streamRva i) = none) {k : Nat}
    (member : InRange k (cvRva buf (recordOff streamRva i)) (cvSize buf (recordOff streamRva i))) : out[k]? = buf[k]? := by
  refine applied.frame k fun j bound buildId answered touched => ?_
  have other : j ≠ i := by
    rintro rfl
    cases unanswered.symm.trans answered
  rcases touched_place bound (rule.fits answered) touched with inside | ⟨_, listed⟩
  · exact formed.cv_apart j bound i within other k inside member
  · exact formed.cv_list i within k member listed

/-- A record that is not patched reads as before. -/
theorem Applied.sameReads (formed : LaidOut buf streamRva count) (applied : Applied rule buf streamRva count out) {i : Nat}
    (within : i < count) (unanswered : rule.answer buf (recordOff streamRva i) = none) :
    SameReads buf out (recordOff streamRva i) where
  length := applied.length
  fields _ member := applied.position formed within member fun answered => absurd unanswered answered
  view _ member := applied.view formed within unanswered member
  name named _ member := applied.name formed within named member

theorem Applied.header (formed : LaidOut buf streamRva count) (applied : Applied rule buf streamRva count out) {off : Nat}
    (small : off + 4 ≤ 32) : getU32 out off = getU32 buf off := by
  refine getU32_congr applied.length fun k member => applied.frame k fun j bound buildId answered touched => ?_
  have low : InRange k 0 32 := ⟨Nat.zero_le k, by have upper := member.2; omega⟩
  rcases touched_place bound (rule.fits answered) touched with range | ⟨field, _⟩
  · exact formed.cv_header j bound k range low
  · exact size_field_past_header field low

theorem Applied.directory (formed : LaidOut buf streamRva count) (applied : Applied rule buf streamRva count out) {entry offset : Nat}
    (within : entry < getU32 buf 8) (small : offset + 4 ≤ kDirEntrySize) :
    getU32 out (getU32 buf 12 + entry * kDirEntrySize + offset) = getU32 buf (getU32 buf 12 + entry * kDirEntrySize + offset) := by
  have below : (entry + 1) * kDirEntrySize ≤ getU32 buf 8 * kDirEntrySize := Nat.mul_le_mul_right _ within
  rw [Nat.add_mul, Nat.one_mul] at below
  refine getU32_congr applied.length fun k member => applied.outside ⟨?_, ?_⟩ formed.list_directory formed.cv_directory
  · have after := member.1
    omega
  · have upper := member.2
    omega

theorem Applied.records_eq (formed : LaidOut buf streamRva count) (applied : Applied rule buf streamRva count out) :
    getU32 out streamRva = getU32 buf streamRva := by
  refine getU32_congr applied.length fun k member => applied.listed formed ⟨member.1, ?_⟩ fun j bound _ field => ?_
  · have upper := member.2
    omega
  · simp only [InRange, recordOff, kModCvDataSizeOff] at member field
    omega

theorem apart_shrink {start length shorter other size : Nat} (apart : Apart start length other size) (fewer : shorter ≤ length) :
    Apart start shorter other size :=
  fun k inside => apart k ⟨inside.1, by have upper := inside.2; omega⟩

/-- The dump is laid out as before. -/
theorem Applied.laidOut (formed : LaidOut buf streamRva count) (applied : Applied rule buf streamRva count out) :
    LaidOut out streamRva count := by
  have length := applied.length
  have eight : getU32 out 8 = getU32 buf 8 := applied.header formed (by decide)
  have twelve : getU32 out 12 = getU32 buf 12 := applied.header formed (by decide)
  have nameLength {i : Nat} (within : i < count) (named : nameRva buf (recordOff streamRva i) ≠ 0) :
      getU32 out (nameRva buf (recordOff streamRva i)) = getU32 buf (nameRva buf (recordOff streamRva i)) :=
    getU32_congr length fun k member => applied.name formed within named ⟨member.1, by have upper := member.2; omega⟩
  refine ⟨⟨length ▸ formed.header, ?_, ?_, ?_, ?_, ?_, formed.bounded, fun i within named => ?_, fun i within => ?_,
    fun i within j bound other => ?_, fun i within => ?_, fun i within => ?_, fun i within => ?_, fun i within j bound named => ?_⟩,
    ?_, fun i within named => ?_⟩
  · exact (applied.header formed (by decide)).trans formed.signature
  · rw [eight, twelve, length]
    exact formed.directory
  · obtain ⟨entry, within, found, location, earlier⟩ := formed.listed
    refine ⟨entry, eight ▸ within, ?_, ?_, fun e before => ?_⟩
    · rw [twelve, ← Nat.add_zero (getU32 buf 12 + _), applied.directory formed within (by decide)]
      exact found
    · rw [twelve, applied.directory formed within (by decide)]
      exact location
    · rw [twelve, ← Nat.add_zero (getU32 buf 12 + _), applied.directory formed (Nat.lt_trans before within) (by decide)]
      exact earlier e before
  · exact ⟨length ▸ formed.list.file, formed.list.address⟩
  · rw [applied.records_eq formed]
    exact formed.records
  · rw [applied.nameRva_eq formed within] at named ⊢
    obtain ⟨located, even, ascii⟩ := formed.names i within named
    have equal := nameLength within named
    have bytes : slice out (nameRva buf (recordOff streamRva i) + 4) (getU32 buf (nameRva buf (recordOff streamRva i))) =
        slice buf (nameRva buf (recordOff streamRva i) + 4) (getU32 buf (nameRva buf (recordOff streamRva i))) :=
      slice_congr fun k after upper => applied.name formed within named ⟨by omega, by omega⟩
    refine ⟨⟨?_, ?_⟩, equal ▸ even, ?_⟩
    · rw [equal, length]
      exact located.file
    · rw [equal]
      exact located.address
    · rw [equal, bytes]
      exact ascii
  · obtain ⟨file, address⟩ := formed.ranges i within
    have shorter := applied.cvSize_le formed within
    rw [applied.cvRva_eq formed within]
    exact ⟨by omega, by omega⟩
  · rw [applied.cvRva_eq formed within, applied.cvRva_eq formed bound]
    have first := apart_shrink (formed.cv_apart i within j bound other) (applied.cvSize_le formed within)
    exact fun k inside second => apart_shrink (fun k one two => first k two one) (applied.cvSize_le formed bound) k second inside
  · rw [applied.cvRva_eq formed within]
    exact apart_shrink (formed.cv_header i within) (applied.cvSize_le formed within)
  · rw [applied.cvRva_eq formed within, eight, twelve]
    exact apart_shrink (formed.cv_directory i within) (applied.cvSize_le formed within)
  · rw [applied.cvRva_eq formed within]
    exact apart_shrink (formed.cv_list i within) (applied.cvSize_le formed within)
  · rw [applied.nameRva_eq formed bound] at named ⊢
    rw [applied.cvRva_eq formed within, nameLength bound named]
    exact apart_shrink (formed.cv_names i within j bound named) (applied.cvSize_le formed within)
  · rw [eight, twelve]
    exact formed.list_directory
  · rw [applied.nameRva_eq formed within] at named ⊢
    rw [nameLength within named]
    exact formed.list_names i within named

/-- What a further patcher finds: nothing where the record has been patched, and what it would have found elsewhere. -/
theorem Applied.answer_eq (formed : LaidOut buf streamRva count) (applied : Applied rule buf streamRva count out) (other : Rule) {i : Nat}
    (within : i < count) :
    other.answer out (recordOff streamRva i) =
      if rule.answer buf (recordOff streamRva i) = none then other.answer buf (recordOff streamRva i) else none := by
  cases answered : rule.answer buf (recordOff streamRva i) with
  | none =>
    rw [if_pos rfl]
    exact other.same (applied.sameReads formed within answered)
  | some buildId =>
    rw [if_neg (Option.some_ne_none buildId), Option.eq_none_iff_forall_ne_some]
    intro again wrong
    refine other.unsigned wrong ?_
    rw [applied.cvRva_eq formed within]
    exact (applied.written i within buildId answered).signature

theorem written_congr {after : Buffer} {off : Nat} {buildId : List UInt8} (written : Written buf out off buildId)
    (length : after.length = out.length) (view : ∀ k, InRange k (cvRva buf off) (4 + buildId.length) → after[k]? = out[k]?)
    (field : getU32 after (off + kModCvDataSizeOff) = getU32 out (off + kModCvDataSizeOff)) : Written buf after off buildId where
  signature := by
    rw [getU32_congr length fun k member => view k ⟨member.1, by have upper := member.2; omega⟩]
    exact written.signature
  identifier := by
    rw [slice_congr fun k after upper => view k ⟨by omega, by omega⟩]
    exact written.identifier
  size := field.trans written.size

theorem Applied.trans {first second : Rule} {mid : Buffer} (formed : LaidOut buf streamRva count)
    (one : Applied first buf streamRva count mid) (two : Applied second mid streamRva count out) :
    Applied (first.orElse second) buf streamRva count out := by
  have laid := one.laidOut formed
  refine ⟨two.length.trans one.length, fun i within buildId answered => ?_, fun k untouched => ?_⟩
  · have later := one.answer_eq formed second within
    rcases Option.or_eq_some_iff.mp answered with now | ⟨unanswered, afterwards⟩
    · have written := one.written i within buildId now
      rw [now, if_neg (Option.some_ne_none buildId)] at later
      refine written_congr written two.length (fun k member => ?_)
        (two.field laid within kModCvDataSizeOff (by decide) fun some => absurd later some)
      have size : cvSize mid (recordOff streamRva i) = 4 + buildId.length := written.size
      exact two.view laid within later (by rwa [one.cvRva_eq formed within, size])
    · rw [unanswered, if_pos rfl, afterwards] at later
      obtain ⟨signature, identifier, size⟩ := two.written i within buildId later
      rw [one.cvRva_eq formed within] at signature identifier
      exact ⟨signature, identifier, size⟩
  · rw [two.frame k, one.frame k]
    · intro i within buildId answered
      exact untouched i within buildId (Option.or_eq_some_iff.mpr (Or.inl answered))
    · intro i within buildId answered touched
      rw [one.answer_eq formed second within] at answered
      split at answered
      next unanswered =>
        refine untouched i within buildId (Option.or_eq_some_iff.mpr (Or.inr ⟨unanswered, answered⟩)) ?_
        unfold Touched at touched ⊢
        rwa [one.cvRva_eq formed within] at touched
      next => cases answered

theorem leValue_injective : ∀ {first second : List UInt8}, first.length = second.length → leValue first = leValue second → first = second
  | [], [], _, _ => rfl
  | one :: first, other :: second, length, same => by
    have small := one.toNat_lt
    have bounded := other.toNat_lt
    simp only [leValue] at same
    have byte : one = other := UInt8.toNat_inj.mp (by omega)
    rw [byte, leValue_injective (Nat.succ.inj length) (by omega)]

/-- Words that are the same have the same bytes. -/
theorem getElem?_of_getU32 {first second : Buffer} {off : Nat} (inside : off + 4 ≤ first.length) (length : second.length = first.length)
    (same : getU32 second off = getU32 first off) {k : Nat} (member : InRange k off 4) : second[k]? = first[k]? := by
  rw [getU32_inside inside, getU32_inside (by omega), word, word] at same
  have bytes := leValue_injective (by rw [length_slice (by omega), length_slice (by omega)]) same
  have read := congrArg (fun bytes => bytes[k - off]?) bytes
  simp only [getElem?_slice] at read
  have upper := member.2
  rwa [if_pos (by omega), if_pos (by omega), Nat.add_sub_cancel' member.1] at read

theorem written_unique {first second : Buffer} {off : Nat} {buildId : List UInt8} (one : Written buf first off buildId)
    (two : Written buf second off buildId) (length : second.length = first.length)
    (inside : cvRva buf off + 4 + buildId.length ≤ first.length) (record : off + kModuleSize ≤ first.length) {k : Nat}
    (touched : Touched buf off buildId k) : second[k]? = first[k]? := by
  unfold kModuleSize at record
  rcases touched with view | field
  · by_cases signature : k < cvRva buf off + 4
    · exact getElem?_of_getU32 (by omega) length (two.signature.trans one.signature.symm) ⟨view.1, signature⟩
    · have read := congrArg (fun bytes => bytes[k - (cvRva buf off + 4)]?) (two.identifier.trans one.identifier.symm)
      have upper := view.2
      simp only [getElem?_slice] at read
      rwa [if_pos (by omega), if_pos (by omega), Nat.add_sub_cancel' (by omega)] at read
  · exact getElem?_of_getU32 (by unfold kModCvDataSizeOff; omega) length (two.size.trans one.size.symm) field

/-- What a rule leaves is determined by its answers. -/
theorem Applied.unique {other : Rule} {after : Buffer} (formed : LaidOut buf streamRva count)
    (one : Applied rule buf streamRva count out) (two : Applied other buf streamRva count after)
    (same : ∀ i < count, other.answer buf (recordOff streamRva i) = rule.answer buf (recordOff streamRva i)) : after = out := by
  apply List.ext_getElem?
  intro k
  by_cases touched : ∃ i < count, ∃ buildId, rule.answer buf (recordOff streamRva i) = some buildId ∧
      Touched buf (recordOff streamRva i) buildId k
  · obtain ⟨i, within, buildId, answered, touched⟩ := touched
    have range := (formed.ranges i within).file
    have fits := rule.fits answered
    have record := record_fits formed within
    refine written_unique (one.written i within buildId answered) (two.written i within buildId ((same i within).trans answered))
      (two.length.trans one.length.symm) ?_ ?_ touched
    · rw [one.length]
      omega
    · rw [one.length]
      exact record
  · rw [one.frame k fun i within buildId answered here => touched ⟨i, within, buildId, answered, here⟩, two.frame k]
    intro i within buildId answered here
    exact touched ⟨i, within, buildId, (same i within).symm.trans answered, here⟩

end Applied

section Daemon
variable {elf : ElfLookup} {buf : Buffer} {streamRva count : Nat}

theorem replaced_iff (lookup : ∀ name, (elf name).length + 4 < 2 ^ 32) {off : Nat} {buildId : List UInt8} :
    Replaced elf buf off buildId ↔ (daemonRule elf lookup).answer buf off = some buildId := by
  show _ ↔ (if _ then chosenId elf _ _ else none) = some buildId
  constructor
  · intro ⟨unsigned, large, named, found, nonempty, fits⟩
    rw [if_pos ⟨large, unsigned⟩]
    exact (chosenId_iff (lookup _)).mpr ⟨named, found, nonempty, fits⟩
  · intro answered
    split at answered
    next considered =>
      obtain ⟨named, found, nonempty, fits⟩ := (chosenId_iff (lookup _)).mp answered
      exact ⟨considered.2, considered.1, named, found, nonempty, fits⟩
    next => cases answered

theorem daemon_applied (formed : LaidOut buf streamRva count) (lookup : ∀ name, (elf name).length + 4 < 2 ^ 32) {faults : FileFaults}
    (path : ByteString) (opens : faults.opens = true) (reads : faults.reads = true) (reopens : faults.reopens = true)
    (accepts : buf.length ≤ faults.accepts) :
    ∃ out, patchMissingBuildIds elf faults path buf = .ok (.ok (), out) ∧ Applied (daemonRule elf lookup) buf streamRva count out := by
  have start : Progress elf buf streamRva count 0 buf := ⟨⟨rfl, fun _ _ => rfl⟩, fun j _ earlier => absurd earlier (Nat.not_lt_zero j)⟩
  obtain ⟨out, total, ended, progress⟩ := start.run formed lookup 0 (Nat.zero_add count)
  refine ⟨out, ?_, progress.frame.1, fun i within buildId answered => ?_, fun k untouched => ?_⟩
  · rw [patchMissingBuildIds_loaded opens reads, patchLoaded_list (start.frame.moduleList formed), ended, Memory.ok_bind, Memory.ok_bind]
    rw [rewriteFile_whole reopens (by rw [progress.frame.1]; exact accepts)]
    rintro rfl
    exact patchModules_unchanged ended
  · exact progress.written i within within buildId ((replaced_iff lookup).mpr answered)
  · exact progress.frame.2 k fun j within _ buildId replaced => untouched j within buildId ((replaced_iff lookup).mp replaced)

end Daemon

section Tool
variable {files : Tools.Patchdmp.Files} {sysroot : Option PurePath} {overrides : List (Text × List UInt8)} {buf : Buffer}
  {streamRva count : Nat}

theorem mem_of_lastByte {writes : List Write} {k : Nat} {byte : UInt8} (last : lastByte writes k = some byte) :
    ∃ write ∈ writes, write.byteAt k = some byte := by
  induction writes with
  | nil => cases last
  | cons write writes ih =>
    rcases Option.or_eq_some_iff.mp last with later | ⟨_, here⟩
    · obtain ⟨other, member, byteAt⟩ := ih later
      exact ⟨other, List.mem_cons_of_mem write member, byteAt⟩
    · exact ⟨write, List.mem_cons_self, here⟩

theorem byteAt_eq_some {write : Write} {k : Nat} {byte : UInt8} (byteAt : write.byteAt k = some byte) :
    InRange k write.offset write.bytes.length ∧ write.bytes[k - write.offset]? = some byte := by
  unfold Write.byteAt at byteAt
  split at byteAt
  next after =>
    obtain ⟨inside, _⟩ := List.getElem?_eq_some_iff.mp byteAt
    exact ⟨⟨after, by omega⟩, byteAt⟩
  next => cases byteAt

/-- Two records are patched in different places. -/
theorem touched_apart (formed : LaidOut buf streamRva count) {i j k : Nat} (within : i < count) (bound : j < count)
    {first second : List UInt8} (room : 4 + first.length ≤ cvSize buf (recordOff streamRva i))
    (fits : 4 + second.length ≤ cvSize buf (recordOff streamRva j)) (one : Touched buf (recordOff streamRva i) first k)
    (two : Touched buf (recordOff streamRva j) second k) : i = j := by
  by_contra other
  rcases touched_place within room one with view | ⟨field, listed⟩
  · rcases touched_place bound fits two with seen | ⟨_, listed⟩
    · exact formed.cv_apart i within j bound other k view seen
    · exact formed.cv_list i within k view listed
  · rcases touched_place bound fits two with seen | ⟨again, _⟩
    · exact formed.cv_list j bound k seen listed
    · simp only [InRange, kModCvDataSizeOff] at field again
      rcases Nat.lt_or_gt_of_ne other with lower | upper
      · have beyond := records_apart streamRva lower
        unfold kModuleSize at beyond
        omega
      · have beyond := records_apart streamRva upper
        unfold kModuleSize at beyond
        omega

theorem write_touches {off k : Nat} {buildId : List UInt8} {write : Write} (member : write ∈ patchWrites (recordOf buf off) buildId)
    {byte : UInt8} (byteAt : write.byteAt k = some byte) : Touched buf off buildId k := by
  obtain ⟨range, _⟩ := byteAt_eq_some byteAt
  have upper := range.2
  have after := range.1
  simp only [patchWrites, List.mem_cons, List.not_mem_nil, or_false] at member
  rcases member with rfl | rfl | rfl
  · have last : k < cvRva buf off + 4 := upper
    exact Or.inl ⟨after, by omega⟩
  · have start : cvRva buf off + 4 ≤ k := after
    have last : k < cvRva buf off + 4 + buildId.length := upper
    exact Or.inl ⟨by omega, by omega⟩
  · exact Or.inr ⟨after, upper⟩

theorem mem_toolRecords_iff (formed : LaidOut buf streamRva count) {remaining i : Nat} (whole : i + remaining = count)
    {mod : Tools.Patchdmp.ModuleRecord} :
    mod ∈ toolRecords buf streamRva remaining i ↔ ∃ j, i ≤ j ∧ j < count ∧ mod = recordOf buf (recordOff streamRva j) := by
  induction remaining generalizing i with
  | zero =>
    refine iff_of_false List.not_mem_nil ?_
    rintro ⟨j, after, before, _⟩
    omega
  | succ remaining ih =>
    have within : i < count := by omega
    rw [toolRecords, if_neg (Nat.not_lt.mpr (record_fits formed within)), List.mem_cons, ih (by omega)]
    constructor
    · rintro (rfl | ⟨j, after, before, rfl⟩)
      · exact ⟨i, Nat.le_refl i, within, rfl⟩
      · exact ⟨j, by omega, before, rfl⟩
    · rintro ⟨j, after, before, rfl⟩
      rcases Nat.eq_or_lt_of_le after with rfl | later
      · exact Or.inl rfl
      · exact Or.inr ⟨j, later, before, rfl⟩

theorem mem_picks_iff (formed : LaidOut buf streamRva count) {mod : Tools.Patchdmp.ModuleRecord} {buildId : List UInt8} :
    (mod, buildId) ∈ picks files sysroot overrides (toolRecords buf streamRva count 0) ↔
      ∃ i < count, mod = recordOf buf (recordOff streamRva i) ∧
        (toolRule files sysroot overrides).answer buf (recordOff streamRva i) = some buildId := by
  rw [mem_picks, mem_toolRecords_iff formed (Nat.zero_add count)]
  constructor
  · rintro ⟨⟨i, _, within, rfl⟩, picked⟩
    exact ⟨i, within, rfl, picked⟩
  · rintro ⟨i, within, rfl, picked⟩
    exact ⟨⟨i, Nat.zero_le i, within, rfl⟩, picked⟩

theorem lastByte_append (first second : List Write) (k : Nat) :
    lastByte (first ++ second) k = (lastByte second k).or (lastByte first k) := by
  induction first with
  | nil => exact (Option.or_none).symm
  | cons write first ih => rw [List.cons_append, lastByte, lastByte, ih, Option.or_assoc]

/-- Where only one of the parts writes, its last byte is the last of all. -/
theorem lastByte_flatMap {α : Type} [DecidableEq α] {parts : List α} {writes : α → List Write} (own : α) {k : Nat}
    (others : ∀ part ∈ parts, part ≠ own → lastByte (writes part) k = none) :
    lastByte (parts.flatMap writes) k = if own ∈ parts then lastByte (writes own) k else none := by
  induction parts with
  | nil => rfl
  | cons part parts ih =>
    obtain ⟨first, later⟩ := List.forall_mem_cons.mp others
    rw [List.flatMap_cons, lastByte_append, ih later]
    by_cases same : part = own
    · subst same
      rw [if_pos List.mem_cons_self]
      split
      next => exact Option.or_self
      next => exact Option.none_or
    · rw [first same, Option.or_none]
      simp only [List.mem_cons, Ne.symm same, false_or]

/-- What is left in a patched record is what is written for this record. -/
theorem last_own (formed : LaidOut buf streamRva count) {i k : Nat} (within : i < count) {buildId : List UInt8}
    (answered : (toolRule files sysroot overrides).answer buf (recordOff streamRva i) = some buildId)
    (touched : Touched buf (recordOff streamRva i) buildId k) :
    lastByte (allWrites (picks files sysroot overrides (toolRecords buf streamRva count 0))) k =
      lastByte (patchWrites (recordOf buf (recordOff streamRva i)) buildId) k := by
  have member := (mem_picks_iff formed).mpr ⟨i, within, rfl, answered⟩
  rw [allWrites, lastByte_flatMap (recordOf buf (recordOff streamRva i), buildId), if_pos member]
  rintro ⟨mod, other⟩ picked differs
  obtain ⟨j, bound, rfl, again⟩ := (mem_picks_iff formed).mp picked
  rw [Option.eq_none_iff_forall_ne_some]
  intro byte last
  obtain ⟨write, among, byteAt⟩ := mem_of_lastByte last
  have same := touched_apart formed within bound ((toolRule files sysroot overrides).fits answered)
    ((toolRule files sysroot overrides).fits again) touched (write_touches among byteAt)
  subst same
  cases answered.symm.trans again
  exact differs rfl

theorem tool_applied (formed : LaidOut buf streamRva count)
    (returns : ∀ name, ∃ found, Tools.Patchdmp.findBuildId files sysroot overrides name = .ok found) :
    ∃ out patched, Tools.Patchdmp.patchMinidump files sysroot overrides buf = .ok (out, patched) ∧
      Applied (toolRule files sysroot overrides) buf streamRva count out := by
  have start : Progress (fun _ => []) buf streamRva count 0 buf :=
    ⟨⟨rfl, fun _ _ => rfl⟩, fun j _ earlier => absurd earlier (Nat.not_lt_zero j)⟩
  have fits {i : Nat} {buildId : List UInt8}
      (answered : (toolRule files sysroot overrides).answer buf (recordOff streamRva i) = some buildId) :=
    (toolRule files sysroot overrides).fits answered
  have inside : ∀ mod buildId, (mod, buildId) ∈ picks files sysroot overrides (toolRecords buf streamRva count 0) →
      WritesInside buf.length mod buildId := by
    intro mod buildId picked
    obtain ⟨i, within, rfl, answered⟩ := (mem_picks_iff formed).mp picked
    have range := (formed.ranges i within).file
    have room := fits answered
    exact ⟨by show cvRva buf _ + 4 + _ ≤ _; omega, sizeField_inside (record_fits formed within)⟩
  have writes : ∀ write ∈ allWrites (picks files sysroot overrides (toolRecords buf streamRva count 0)), write.Inside buf.length := by
    intro write among
    obtain ⟨⟨mod, buildId⟩, member, one⟩ := List.mem_flatMap.mp among
    exact patchWrites_inside (inside mod buildId member) write one
  have sized : ∀ mod ∈ toolRecords buf streamRva count 0, mod.cvSize < 2 ^ 32 := by
    intro mod member
    obtain ⟨i, _, _, rfl⟩ := (mem_toolRecords_iff formed (Nat.zero_add count)).mp member
    exact cvSize_lt buf _
  have ran := patchModules_writes (fun mod _ _ => returns mod.name) sized inside 0
  refine ⟨_, 0 + (picks files sysroot overrides (toolRecords buf streamRva count 0)).length, ?_, length_applyWrites writes, fun i within buildId answered => ?_, fun k untouched => ?_⟩
  · rw [Tools.Patchdmp.patchMinidump, iterModules_list (start.frame.moduleList formed), Python.ok_bind]
    exact ran
  · have room := fits answered
    have range := (formed.ranges i within).file
    have record := record_fits formed within
    have alone : ∀ write ∈ patchWrites (recordOf buf (recordOff streamRva i)) buildId, write.Inside buf.length :=
      patchWrites_inside (inside _ buildId ((mem_picks_iff formed).mpr ⟨i, within, rfl, answered⟩))
    have same {k : Nat} (touched : Touched buf (recordOff streamRva i) buildId k) :
        (applyWrites buf (allWrites (picks files sysroot overrides (toolRecords buf streamRva count 0))))[k]? =
          (patchedRecord buf (recordOff streamRva i) (cvRva buf (recordOff streamRva i)) buildId)[k]? := by
      rw [getElem?_applyWrites writes, last_own formed within answered touched]
      exact (getElem?_applyWrites alone k).symm
    have size := length_patchedRecord (show cvRva buf (recordOff streamRva i) + 4 + buildId.length ≤ buf.length by omega) record
    have small := cvSize_lt buf (recordOff streamRva i)
    have short : 4 + buildId.length < 2 ^ 32 := Nat.lt_of_le_of_lt room small
    obtain ⟨signature, identifier, length⟩ := patchedRecord_written (show cvRva buf (recordOff streamRva i) + 4 + buildId.length ≤ buf.length by omega)
      record short room (formed.cv_field within within)
    have written : Written buf (patchedRecord buf (recordOff streamRva i) (cvRva buf (recordOff streamRva i)) buildId)
        (recordOff streamRva i) buildId := by
      refine ⟨?_, identifier, ?_⟩
      · rw [getU32_inside (by omega)]
        exact signature
      · rw [getU32_inside (by unfold kModuleSize at record; unfold kModCvDataSizeOff; omega)]
        exact length
    have whole := (length_applyWrites writes).trans size.symm
    exact written_congr written whole (fun k member => same (Or.inl member)) (getU32_congr whole fun k member => same (Or.inr member))
  · rw [getElem?_applyWrites writes]
    cases last : lastByte (allWrites (picks files sysroot overrides (toolRecords buf streamRva count 0))) k with
    | none => rfl
    | some byte =>
      obtain ⟨write, member, byteAt⟩ := mem_of_lastByte last
      obtain ⟨⟨mod, other⟩, picked, among⟩ := List.mem_flatMap.mp member
      obtain ⟨j, bound, rfl, again⟩ := (mem_picks_iff formed).mp picked
      exact absurd (write_touches among byteAt) (untouched j bound other again)

end Tool

/-- A run of one of the two patchers on a dump, in place. -/
inductive Pass where
  /-- The daemon, with working streams. -/
  | daemon (elf : ElfLookup) (faults : FileFaults) (path : ByteString) (lookup : ∀ name, (elf name).length + 4 < 2 ^ 32)
    (opens : faults.opens = true) (reads : faults.reads = true) (reopens : faults.reopens = true)
  /-- The tool, whose searches for files return. -/
  | tool (files : Tools.Patchdmp.Files) (sysroot : Option PurePath) (overrides : List (Text × List UInt8))
    (returns : ∀ name, ∃ found, Tools.Patchdmp.findBuildId files sysroot overrides name = .ok found)

/-- The dump afterwards, where the run ends without an error. -/
def Pass.run : Pass → Buffer → Option Buffer
  | .daemon elf faults path _ _ _ _, dump =>
    match patchMissingBuildIds elf faults path dump with
    | .ok (.ok (), out) => some out
    | _ => none
  | .tool files sysroot overrides _, dump => (Tools.Patchdmp.patchMinidump files sysroot overrides dump).toOption.map Prod.fst

def Pass.rule : Pass → Rule
  | .daemon elf _ _ lookup _ _ _ => daemonRule elf lookup
  | .tool files sysroot overrides _ => toolRule files sysroot overrides

/-- The disk takes a dump of the size. -/
def Pass.Takes (size : Nat) : Pass → Prop
  | .daemon _ faults _ _ _ _ _ => size ≤ faults.accepts
  | .tool _ _ _ _ => True

def runs (passes : List Pass) (dump : Buffer) : Option Buffer := passes.foldlM (fun dump pass => pass.run dump) dump

/-- The first of the passes that has a build ID for a record decides. -/
def firstAnswer (passes : List Pass) : Rule := passes.foldr (fun pass later => pass.rule.orElse later) .none

section Runs
variable {buf : Buffer} {streamRva count : Nat}

theorem firstAnswer_eq (passes : List Pass) (off : Nat) :
    (firstAnswer passes).answer buf off = passes.findSome? fun pass => pass.rule.answer buf off := by
  induction passes with
  | nil => rfl
  | cons pass rest ih =>
    rw [List.findSome?_cons, ← ih]
    show (pass.rule.answer buf off).or ((firstAnswer rest).answer buf off) = _
    cases pass.rule.answer buf off <;> rfl

theorem pass_applied (formed : LaidOut buf streamRva count) (pass : Pass) (takes : pass.Takes buf.length) :
    ∃ out, pass.run buf = some out ∧ Applied pass.rule buf streamRva count out := by
  cases pass with
  | daemon elf faults path lookup opens reads reopens =>
    obtain ⟨out, ran, applied⟩ := daemon_applied formed lookup path opens reads reopens takes
    exact ⟨out, by rw [Pass.run, ran], applied⟩
  | tool files sysroot overrides returns =>
    obtain ⟨out, patched, ran, applied⟩ := tool_applied formed returns
    refine ⟨out, ?_, applied⟩
    rw [Pass.run, ran]
    rfl

theorem none_applied (buf : Buffer) (streamRva count : Nat) : Applied .none buf streamRva count buf :=
  ⟨rfl, fun _ _ _ answered => (nomatch answered), fun _ _ => rfl⟩

theorem runs_applied (formed : LaidOut buf streamRva count) (passes : List Pass) (takes : ∀ pass ∈ passes, pass.Takes buf.length) :
    ∃ out, runs passes buf = some out ∧ Applied (firstAnswer passes) buf streamRva count out := by
  induction passes generalizing buf with
  | nil => exact ⟨buf, rfl, none_applied buf streamRva count⟩
  | cons pass rest ih =>
    obtain ⟨first, later⟩ := List.forall_mem_cons.mp takes
    obtain ⟨mid, ran, one⟩ := pass_applied formed pass first
    rw [← one.length] at later
    obtain ⟨out, rest, two⟩ := ih (one.laidOut formed) later
    refine ⟨out, ?_, one.trans formed two⟩
    rw [runs, List.foldlM_cons, ran]
    exact rest

end Runs

/-- Patchers of both kinds run on a dump in any order and number: every record ends with the first build ID that one of
them has for it, and nothing else changes; runs in which the same answers come first leave the same dump. -/
theorem first_answer_kept {dump : Buffer} {streamRva count : Nat} (formed : LaidOut dump streamRva count) (passes : List Pass)
    (takes : ∀ pass ∈ passes, pass.Takes dump.length) :
    ∃ out, runs passes dump = some out ∧ Applied (firstAnswer passes) dump streamRva count out ∧
      ∀ others : List Pass, (∀ pass ∈ others, pass.Takes dump.length) →
        (∀ i < count, (others.findSome? fun pass => pass.rule.answer dump (recordOff streamRva i)) =
          passes.findSome? fun pass => pass.rule.answer dump (recordOff streamRva i)) →
        runs others dump = some out := by
  obtain ⟨out, ran, applied⟩ := runs_applied formed passes takes
  refine ⟨out, ran, applied, fun others fitting same => ?_⟩
  obtain ⟨after, again, other⟩ := runs_applied formed others fitting
  rw [again, applied.unique formed other]
  intro i within
  rw [firstAnswer_eq, firstAnswer_eq, same i within]

/-- The tool first, with a build ID for "a" and no files, and then the daemon. -/
def twoPasses : List Pass :=
  [.tool PatchdmpRun.noFiles none [(['a'], List.replicate 20 9)] fun name =>
      (PatchdmpRun.findBuildId_returns_iff (fun _ => ⟨_, rfl⟩) name).mpr fun _ _ => ⟨(by simp), (by simp), fun _ => ⟨false, rfl⟩⟩,
    .daemon identified healthy (ascii "two.dmp") length_identified rfl rfl rfl]

theorem twoModules_passed : ∃ out, runs twoPasses twoModules = some out ∧ Applied (firstAnswer twoPasses) twoModules 44 2 out ∧
    ∀ others : List Pass, (∀ pass ∈ others, pass.Takes twoModules.length) →
      (∀ i < 2, (others.findSome? fun pass => pass.rule.answer twoModules (recordOff 44 i)) =
        twoPasses.findSome? fun pass => pass.rule.answer twoModules (recordOff 44 i)) →
      runs others twoModules = some out := by
  refine first_answer_kept twoModules_laidOut twoPasses ?_
  rintro pass (_ | ⟨_, _ | ⟨_, last⟩⟩)
  · trivial
  · show twoModules.length ≤ healthy.accepts
    decide +kernel
  · cases last

end Crashomon.Proofs.PatcherRuns
