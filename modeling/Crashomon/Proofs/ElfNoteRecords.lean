import Crashomon.Base.Loop
import Crashomon.Proofs.ElfBounds

/-! ELF notes written and read back: the records of a region, with their padding, and what the
daemon's and the tool's loops find in it. -/

namespace Crashomon.Proofs.ElfNoteRecords
open Bytes Memory Python ElfNotes Loop
open ElfReads ElfBounds

/-- A note as it is written. No size wraps when it is padded. -/
structure Record where
  name : List UInt8
  desc : List UInt8
  type : Nat
  shortName : name.length ≤ 2 ^ 32 - 4
  shortDesc : desc.length ≤ 2 ^ 32 - 4
  smallType : type < 2 ^ 32

/-- The bytes that follow a size up to a multiple of four. -/
def padding (size : Nat) : Nat := (4 - size % 4) % 4

def Record.header (record : Record) : Buffer := le32 record.name.length ++ le32 record.desc.length ++ le32 record.type

/-- The bytes of a record whose description is followed by others. -/
def Record.onto (record : Record) (namePad rest : Buffer) : Buffer :=
  record.header ++ (record.name ++ (namePad ++ (record.desc ++ rest)))

/-- A region that holds the records in order. The padding of the last description may be cut off. -/
inductive Encodes : List Record → Buffer → Prop where
  | none : Encodes [] []
  | last (record : Record) {namePad descPad : Buffer} (named : namePad.length = padding record.name.length)
      (cut : descPad.length ≤ padding record.desc.length) :
      Encodes [record] (record.onto namePad descPad)
  | more (record : Record) {namePad descPad : Buffer} {records : List Record} {rest : Buffer}
      (named : namePad.length = padding record.name.length) (described : descPad.length = padding record.desc.length)
      (later : Encodes records rest) :
      Encodes (record :: records) (record.onto namePad (descPad ++ rest))

/-- The description of the first build ID note. -/
def firstDesc (records : List Record) : Option (List UInt8) :=
  (records.find? fun record => record.type = 3 ∧ record.desc ≠ []).map Record.desc

section Turns
variable {pad : Nat → Nat} {memory : Buffer} {stop position : Nat}

/-- Where the description of the note at a position begins, for a way to pad sizes. -/
def descFrom (pad : Nat → Nat) (memory : Buffer) (position : Nat) : Nat := position + 12 + pad (noteAt memory position).nameSize

def Identified (pad : Nat → Nat) (memory : Buffer) (stop position : Nat) : Prop :=
  (noteAt memory position).type = 3 ∧ 0 < (noteAt memory position).descSize ∧
    descFrom pad memory position + (noteAt memory position).descSize ≤ stop

instance : Decidable (Identified pad memory stop position) := inferInstanceAs (Decidable (_ ∧ _ ∧ _))

/-- One turn of the loop over the notes of a region. -/
def noteTurn (pad : Nat → Nat) (memory : Buffer) (stop position : Nat) : Turn Nat (Option (List UInt8)) :=
  if stop < position + 12 then .done none
  else if Identified pad memory stop position then
    .done (some (slice memory (descFrom pad memory position) (noteAt memory position).descSize))
  else .again (descFrom pad memory position + pad (noteAt memory position).descSize)

theorem turn_short (short : stop < position + 12) : noteTurn pad memory stop position = .done none := if_pos short

theorem turn_found (whole : ¬ stop < position + 12) (identified : Identified pad memory stop position) :
    noteTurn pad memory stop position = .done (some (slice memory (descFrom pad memory position) (noteAt memory position).descSize)) := by
  rw [noteTurn, if_neg whole, if_pos identified]

theorem turn_next (whole : ¬ stop < position + 12) (other : ¬ Identified pad memory stop position) :
    noteTurn pad memory stop position = .again (descFrom pad memory position + pad (noteAt memory position).descSize) := by
  rw [noteTurn, if_neg whole, if_neg other]

theorem tool_turn (inside : stop ≤ memory.length) (rounds : Nat) :
    Tools.ElfBuildId.parseBuildIdNoteFrom memory stop (rounds + 1) position =
      (noteTurn padded memory stop position).elim .ok (Tools.ElfBuildId.parseBuildIdNoteFrom memory stop rounds) := by
  rw [Tools.ElfBuildId.parseBuildIdNoteFrom]
  by_cases short : stop < position + 12
  · rw [if_pos short, turn_short short, Turn.elim]
  · rw [if_neg short, unpackUnsigned_inside (by omega), unpackUnsigned_inside (by omega), unpackUnsigned_inside (by omega)]
    simp only [Python.ok_bind]
    by_cases identified : Identified padded memory stop position
    · rw [turn_found short identified, Turn.elim]
      exact if_pos identified
    · rw [turn_next short identified, Turn.elim, descFrom, Nat.add_assoc _ (padded _)]
      exact if_neg identified

theorem daemon_turn (small : memory.length < 2 ^ 63) {base size pos : Nat} (inside : base + size ≤ memory.length)
    (bounded : pos < 2 ^ 63 + 2 ^ 34) (rounds : Nat) :
    Daemon.ElfBuildId.parseBuildIdNoteFrom memory base size (rounds + 1) pos =
      (noteTurn wrapPad memory (base + size) (base + pos)).elim (fun found => .ok (found.getD [])) fun next =>
        Daemon.ElfBuildId.parseBuildIdNoteFrom memory base size rounds (next - base) := by
  by_cases short : size < pos + 12
  · rw [Daemon.ElfBuildId.parseBuildIdNoteFrom, @Daemon.ElfBuildId.sizeT_of_lt (pos + 12) (by omega), if_pos short,
      turn_short (by omega), Turn.elim]
    rfl
  · rw [parse_note small (Nat.le_of_not_lt short) (by omega)]
    by_cases identified : Identified wrapPad memory (base + size) (base + pos)
    · have fits : descStart memory (base + pos) + descSize memory (base + pos) ≤ memory.length := Nat.le_trans identified.2.2 inside
      rw [turn_found (by omega) identified, Turn.elim]
      exact (if_pos identified).trans (load_inside fits)
    · rw [turn_next (by omega) identified, Turn.elim]
      exact if_neg identified

/-- What a turn leaves behind lies 12 bytes on or more, and a header back in the region. -/
theorem turn_again {next : Nat} (again : noteTurn pad memory stop position = .again next) :
    position + 12 ≤ stop ∧ next = descFrom pad memory position + pad (noteAt memory position).descSize := by
  by_cases short : stop < position + 12
  · rw [turn_short short] at again
    cases again
  by_cases identified : Identified pad memory stop position
  · rw [turn_found short identified] at again
    cases again
  · rw [turn_next short identified] at again
    cases again
    exact ⟨Nat.le_of_not_lt short, rfl⟩

theorem turn_done {bid : List UInt8} (done : noteTurn pad memory stop position = .done (some bid)) :
    ∃ offset length, position ≤ offset ∧ offset + length ≤ stop ∧ bid = slice memory offset length := by
  by_cases short : stop < position + 12
  · rw [turn_short short] at done
    cases done
  by_cases identified : Identified pad memory stop position
  · rw [turn_found short identified] at done
    cases done
    refine ⟨_, _, ?_, identified.2.2, rfl⟩
    unfold descFrom
    omega
  · rw [turn_next short identified] at done
    cases done

end Turns

section Runs
variable {memory : Buffer} {found : Option (List UInt8)}

theorem tool_run {stop : Nat} (inside : stop ≤ memory.length) {turns position : Nat}
    (ended : run (noteTurn padded memory stop) turns position = some found) :
    Tools.ElfBuildId.parseBuildIdNoteFrom memory stop turns position = .ok found := by
  induction turns generalizing position with
  | zero => cases ended
  | succ turns ih =>
    rw [tool_turn inside]
    cases taken : noteTurn padded memory stop position with
    | done result =>
      rw [run_done taken] at ended
      cases ended
      rfl
    | again next =>
      rw [run_again taken] at ended
      exact ih ended

theorem daemon_run (small : memory.length < 2 ^ 63) {base size : Nat} (inside : base + size ≤ memory.length) {turns pos : Nat}
    (bounded : pos < 2 ^ 63 + 2 ^ 34) (ended : run (noteTurn wrapPad memory (base + size)) turns (base + pos) = some found) :
    Daemon.ElfBuildId.parseBuildIdNoteFrom memory base size turns pos = .ok (found.getD []) := by
  induction turns generalizing pos with
  | zero => cases ended
  | succ turns ih =>
    rw [daemon_turn small inside bounded]
    cases taken : noteTurn wrapPad memory (base + size) (base + pos) with
    | done result =>
      rw [run_done taken] at ended
      cases ended
      rfl
    | again next =>
      obtain ⟨header, place⟩ := turn_again taken
      have nameBound := wrapPad_lt (noteAt memory (base + pos)).nameSize
      have descBound := wrapPad_lt (noteAt memory (base + pos)).descSize
      unfold descFrom at place
      have onward : base + (next - base) = next := by omega
      rw [run_again taken, ← onward] at ended
      exact ih (by omega) ended

end Runs

section Regions
variable {pad : Nat → Nat} {before bytes after : Buffer}

theorem slice_infix {offset length : Nat} (from_start : before.length ≤ offset) (within : offset + length ≤ before.length + bytes.length) :
    slice (before ++ bytes ++ after) offset length <:+: bytes := by
  obtain ⟨start, rfl⟩ := Nat.exists_eq_add_of_le from_start
  have inner : slice (before ++ bytes ++ after) (before.length + start) length = (bytes.drop start).take length := by
    have short : start ≤ bytes.length := by omega
    rw [slice, List.append_assoc, List.drop_length_add_append, List.drop_append_of_le_length short,
      List.take_append_of_le_length (by rw [List.length_drop]; omega)]
  rw [inner]
  exact (List.take_prefix length _).isInfix.trans (List.drop_suffix start bytes).isInfix

/-- Within any region of memory the loop ends, and a build ID it finds is part of the region. -/
theorem region_ends (pad : Nat → Nat) (before bytes after : Buffer) {turns : Nat} (enough : bytes.length / 12 < turns) :
    ∃ found, run (noteTurn pad (before ++ bytes ++ after) (before.length + bytes.length)) turns before.length = some found ∧
      ∀ bid, found = some bid → bid <:+: bytes := by
  apply run_ends (fun position => before.length ≤ position) fun position => (before.length + bytes.length - position) / 12
  · intro position found start done bid same
    rw [same] at done
    obtain ⟨offset, length, later, fits, rfl⟩ := turn_done done
    exact slice_infix (Nat.le_trans start later) fits
  · intro position next start again
    obtain ⟨header, place⟩ := turn_again again
    unfold descFrom at place
    omega
  · exact Nat.le_refl _
  · rw [Nat.add_sub_cancel_left]
    exact enough

end Regions

section Records
variable {pad : Nat → Nat} {before : Buffer}

theorem padded_eq (size : Nat) : padded size = size + padding size := by
  unfold padded padding
  omega

theorem wrapPad_eq {size : Nat} (short : size ≤ 2 ^ 32 - 4) : wrapPad size = padded size :=
  congrArg Daemon.ElfBuildId.clearLow (u32_of_lt (by omega))

theorem unsignedAt_le32 {value : Nat} (small : value < 2 ^ 32) (before rest : Buffer) :
    unsignedAt (before ++ (le32 value ++ rest)) before.length 4 = value := by
  have written : slice (before ++ (le32 value ++ rest)) before.length 4 = le32 value := by
    rw [slice, List.drop_left]
    exact List.take_left' (length_le32 value)
  rw [unsignedAt, written, leValue_le32 small]

theorem noteAt_record (record : Record) (before rest : Buffer) :
    noteAt (before ++ (record.header ++ rest)) before.length =
      ⟨before.length, record.name.length, record.desc.length, record.type⟩ := by
  have shortName := record.shortName
  have shortDesc := record.shortDesc
  have first := @unsignedAt_le32 record.name.length (by omega) before (le32 record.desc.length ++ (le32 record.type ++ rest))
  have second := @unsignedAt_le32 record.desc.length (by omega) (before ++ le32 record.name.length) (le32 record.type ++ rest)
  have third := @unsignedAt_le32 record.type record.smallType (before ++ (le32 record.name.length ++ le32 record.desc.length)) rest
  simp only [List.length_append, length_le32, List.append_assoc] at second third
  simp only [noteAt, Record.header, List.append_assoc, first, second, third]

theorem onto_append (record : Record) (namePad rest after : Buffer) :
    record.onto namePad rest ++ after = record.onto namePad (rest ++ after) := by
  simp only [Record.onto, List.append_assoc]

theorem length_onto {record : Record} {namePad : Buffer} (named : namePad.length = padding record.name.length) (rest : Buffer) :
    (record.onto namePad rest).length = 12 + padded record.name.length + record.desc.length + rest.length := by
  simp only [Record.onto, Record.header, List.length_append, length_le32, padded_eq, named]
  omega

theorem desc_slice {record : Record} {namePad : Buffer} (named : namePad.length = padding record.name.length) (before rest : Buffer) :
    slice (before ++ record.onto namePad rest) (before.length + 12 + padded record.name.length) record.desc.length = record.desc := by
  have start : before.length + 12 + padded record.name.length = (before ++ (record.header ++ (record.name ++ namePad))).length := by
    simp only [Record.header, List.length_append, length_le32, padded_eq, named]
    omega
  have split : before ++ record.onto namePad rest =
      before ++ (record.header ++ (record.name ++ namePad)) ++ (record.desc ++ rest) := by
    simp only [Record.onto, List.append_assoc]
  rw [slice, start, split, List.drop_left]
  exact List.take_left

/-- The loop at a record: it ends with its build ID, or it goes on where the padding ends. -/
theorem turn_record (agrees : ∀ size ≤ 2 ^ 32 - 4, pad size = padded size) {record : Record} {namePad rest : Buffer} {stop : Nat}
    (named : namePad.length = padding record.name.length)
    (fits : before.length + 12 + padded record.name.length + record.desc.length ≤ stop) :
    noteTurn pad (before ++ record.onto namePad rest) stop before.length =
      if record.type = 3 ∧ record.desc ≠ [] then .done (some record.desc)
      else .again (before.length + 12 + padded record.name.length + padded record.desc.length) := by
  have note := noteAt_record record before (record.name ++ (namePad ++ (record.desc ++ rest)))
  rw [← Record.onto] at note
  have start : descFrom pad (before ++ record.onto namePad rest) before.length = before.length + 12 + padded record.name.length := by
    rw [descFrom, note, agrees _ record.shortName]
  have whole : ¬ stop < before.length + 12 := by omega
  have identified : Identified pad (before ++ record.onto namePad rest) stop before.length ↔ record.type = 3 ∧ record.desc ≠ [] := by
    rw [Identified, note, start, ← List.length_pos_iff]
    tauto
  by_cases id : record.type = 3 ∧ record.desc ≠ []
  · rw [if_pos id, turn_found whole (identified.mpr id), start, note, desc_slice named]
  · rw [if_neg id, turn_next whole (fun found => id (identified.mp found)), start, note, agrees _ record.shortDesc]

theorem firstDesc_cons (record : Record) (records : List Record) :
    firstDesc (record :: records) = if record.type = 3 ∧ record.desc ≠ [] then some record.desc else firstDesc records := by
  unfold firstDesc
  rw [List.find?_cons]
  split
  next id => rw [if_pos (of_decide_eq_true id), Option.map_some]
  next other => rw [if_neg (of_decide_eq_false other)]

/-- Read back, written notes give the description of the first build ID. -/
theorem run_records (agrees : ∀ size ≤ 2 ^ 32 - 4, pad size = padded size) {records : List Record} {bytes : Buffer}
    (encodes : Encodes records bytes) (before after : Buffer) {turns : Nat} (enough : bytes.length / 12 < turns) :
    run (noteTurn pad (before ++ bytes ++ after) (before.length + bytes.length)) turns before.length = some (firstDesc records) := by
  induction encodes generalizing before turns with
  | none =>
    obtain ⟨turns, rfl⟩ := Nat.exists_eq_succ_of_ne_zero (Nat.ne_zero_of_lt enough)
    exact run_done (turn_short (Nat.lt_add_of_pos_right (by decide))) turns
  | @last record namePad descPad named cut =>
    have length := length_onto named descPad
    obtain ⟨turns, rfl⟩ := Nat.exists_eq_add_of_le' (show 2 ≤ turns by omega)
    rw [List.append_assoc, onto_append, firstDesc_cons]
    have taken := @turn_record pad before agrees record namePad (descPad ++ after) (before.length + (record.onto namePad descPad).length)
      named (by omega)
    by_cases id : record.type = 3 ∧ record.desc ≠ []
    · rw [if_pos id] at taken ⊢
      exact run_done taken (turns + 1)
    · rw [if_neg id] at taken ⊢
      have beyond := padded_eq record.desc.length
      rw [run_again taken]
      exact run_done (turn_short (by omega)) turns
  | @more record namePad descPad records rest named described later ih =>
    have length := length_onto named (descPad ++ rest)
    have first := length_onto named descPad
    rw [List.length_append] at length
    obtain ⟨turns, rfl⟩ := Nat.exists_eq_add_of_le' (show 1 ≤ turns by omega)
    rw [List.append_assoc, onto_append, firstDesc_cons]
    have taken := @turn_record pad before agrees record namePad (descPad ++ rest ++ after)
      (before.length + (record.onto namePad (descPad ++ rest)).length) named (by omega)
    by_cases id : record.type = 3 ∧ record.desc ≠ []
    · rw [if_pos id] at taken ⊢
      exact run_done taken turns
    · rw [if_neg id] at taken ⊢
      have desc := padded_eq record.desc.length
      -- What the rest follows is the padded record, so that the next header lies where the rest begins.
      have place : before.length + 12 + padded record.name.length + padded record.desc.length =
          (before ++ record.onto namePad descPad).length := by
        rw [List.length_append]
        omega
      have stop : before.length + (record.onto namePad (descPad ++ rest)).length =
          (before ++ record.onto namePad descPad).length + rest.length := by
        rw [List.length_append]
        omega
      have memory : before ++ record.onto namePad (descPad ++ rest ++ after) =
          before ++ record.onto namePad descPad ++ rest ++ after := by
        simp only [List.append_assoc, onto_append]
      rw [run_again taken, place, stop, memory]
      exact ih (before ++ record.onto namePad descPad) (by omega)

end Records

/-- A part of a file in memory, with what lies around it. -/
structure Region where
  before : Buffer
  bytes : Buffer
  after : Buffer
  fits : (before ++ bytes ++ after).length < 2 ^ 63

namespace Region
variable {region : Region} {pad : Nat → Nat} {found : Option (List UInt8)}

def memory (region : Region) : Buffer := region.before ++ region.bytes ++ region.after

def start (region : Region) : Nat := region.before.length

def size (region : Region) : Nat := region.bytes.length

/-- The loop over the notes of the region, with a turn more than it has bytes. -/
def loop (region : Region) (pad : Nat → Nat) : Option (Option (List UInt8)) :=
  run (noteTurn pad region.memory (region.start + region.size)) (region.size + 1) region.start

theorem inside (region : Region) : region.start + region.size ≤ region.memory.length := by
  rw [memory, List.length_append, List.length_append]
  exact Nat.le_add_right _ _

theorem loop_ends (region : Region) (pad : Nat → Nat) :
    ∃ found, region.loop pad = some found ∧ ∀ bid, found = some bid → bid <:+: region.bytes :=
  region_ends pad region.before region.bytes region.after (Nat.lt_succ_of_le (Nat.div_le_self _ _))

theorem loop_records (agrees : ∀ size ≤ 2 ^ 32 - 4, pad size = padded size) {records : List Record} (encodes : Encodes records region.bytes) :
    region.loop pad = some (firstDesc records) :=
  run_records agrees encodes region.before region.after (Nat.lt_succ_of_le (Nat.div_le_self _ _))

/-- A turn for each byte is enough, but where there is none. -/
theorem loop_cases (ended : region.loop pad = some found) :
    region.size = 0 ∧ found = none ∨ run (noteTurn pad region.memory (region.start + region.size)) region.size region.start = some found := by
  rcases Nat.eq_zero_or_pos region.size with empty | some_bytes
  · left
    rw [loop, empty, run_done (turn_short (by omega))] at ended
    exact ⟨empty, (Option.some.inj ended).symm⟩
  · right
    obtain ⟨other, within, _⟩ := region_ends pad region.before region.bytes region.after (Nat.div_lt_self some_bytes (by decide))
    have more := run_more within (Nat.le_succ _)
    rw [← ended]
    exact within.trans more.symm

theorem tool_parses (ended : region.loop padded = some found) :
    Tools.ElfBuildId.parseBuildIdNote region.memory region.start region.size = .ok found := by
  rcases loop_cases ended with ⟨empty, rfl⟩ | within
  · rw [empty]
    rfl
  · exact tool_run region.inside within

theorem daemon_parses (ended : region.loop wrapPad = some found) :
    Daemon.ElfBuildId.parseBuildIdNote region.memory region.start region.size = .ok (found.getD []) := by
  rcases loop_cases ended with ⟨empty, rfl⟩ | within
  · rw [empty]
    rfl
  · exact daemon_run region.fits region.inside (by decide) within

end Region

/-- Written notes are read back by both parsers. On any region both loops end, with a part of it or nothing. -/
theorem notes_parsed (region : Region) :
    (∀ records, Encodes records region.bytes →
      Daemon.ElfBuildId.parseBuildIdNote region.memory region.start region.size = .ok ((firstDesc records).getD []) ∧
        Tools.ElfBuildId.parseBuildIdNote region.memory region.start region.size = .ok (firstDesc records)) ∧
    (∃ found, region.loop wrapPad = some found ∧
      Daemon.ElfBuildId.parseBuildIdNote region.memory region.start region.size = .ok (found.getD []) ∧
        ∀ bid, found = some bid → bid <:+: region.bytes) ∧
    ∃ found, region.loop padded = some found ∧
      Tools.ElfBuildId.parseBuildIdNote region.memory region.start region.size = .ok found ∧
        ∀ bid, found = some bid → bid <:+: region.bytes := by
  obtain ⟨daemonFound, daemonEnds, daemonPart⟩ := region.loop_ends wrapPad
  obtain ⟨toolFound, toolEnds, toolPart⟩ := region.loop_ends padded
  refine ⟨fun records encodes => ⟨?_, ?_⟩, ?_, ?_⟩
  · exact Region.daemon_parses (Region.loop_records (fun _ => wrapPad_eq) encodes)
  · exact Region.tool_parses (Region.loop_records (fun _ _ => rfl) encodes)
  · exact ⟨daemonFound, daemonEnds, Region.daemon_parses daemonEnds, daemonPart⟩
  · exact ⟨toolFound, toolEnds, Region.tool_parses toolEnds, toolPart⟩

def abiTag : Record := ⟨[0x47, 0x4E, 0x55, 0], [0, 0, 0, 0, 3], 1, by decide, by decide, by decide⟩

def buildId : Record := ⟨[0x47, 0x4E, 0x55, 0], [0xab, 0xcd, 0xef], 3, by decide, by decide, by decide⟩

/-- A build ID after another note, its own padding cut off. -/
def twoNotes : Region :=
  ⟨[0x7F], abiTag.onto [] ([0, 0, 0] ++ buildId.onto [] []), [1, 2], by decide⟩

theorem twoNotes_encoded : Encodes [abiTag, buildId] twoNotes.bytes :=
  @Encodes.more abiTag [] [0, 0, 0] [buildId] (buildId.onto [] []) (by decide) (by decide)
    (@Encodes.last buildId [] [] (by decide) (by decide))

theorem twoNotes_first : firstDesc [abiTag, buildId] = some [0xab, 0xcd, 0xef] := by decide

/-- The first note is skipped, with its padding. -/
theorem twoNotes_parsed :
    Daemon.ElfBuildId.parseBuildIdNote twoNotes.memory twoNotes.start twoNotes.size = .ok [0xab, 0xcd, 0xef] ∧
      Tools.ElfBuildId.parseBuildIdNote twoNotes.memory twoNotes.start twoNotes.size = .ok (some [0xab, 0xcd, 0xef]) := by
  have parsed := (notes_parsed twoNotes).1 [abiTag, buildId] twoNotes_encoded
  rw [twoNotes_first] at parsed
  exact parsed

end Crashomon.Proofs.ElfNoteRecords
