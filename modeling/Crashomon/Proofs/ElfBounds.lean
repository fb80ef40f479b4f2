import Crashomon.Proofs.ElfDivergence

/-! Which offsets of a file the daemon reads for its build ID. On a memory that holds the file
and nothing else, the reading ends exactly when none of them lies past the file. -/

namespace Crashomon.Proofs.ElfBounds
open Bytes Memory ElfReads ElfAgreement ElfDivergence
open Daemon.ElfBuildId

section Reads
variable {file : Buffer} {off width : Nat}

theorem sizeT_add (inside : sizeT off + width < 2 ^ 64) : sizeT (off + width) = sizeT off + width := by
  unfold sizeT at inside ⊢
  omega

theorem loadUnsigned_iff {value : Nat} :
    loadUnsigned file off width = .ok value ↔ sizeT off + width ≤ file.length ∧ value = unsignedAt file (sizeT off) width := by
  rw [loadUnsigned, bind_ok]
  constructor
  · rintro ⟨bytes, loaded, same⟩
    have inside := inside_of_load loaded
    rw [load_inside inside] at loaded
    cases loaded
    cases same
    exact ⟨inside, rfl⟩
  · rintro ⟨inside, same⟩
    exact ⟨_, load_inside inside, congrArg Except.ok same.symm⟩

theorem loadUnsigned_at (inside : sizeT off + width ≤ file.length) :
    loadUnsigned file off width = .ok (unsignedAt file (sizeT off) width) :=
  loadUnsigned_iff.mpr ⟨inside, rfl⟩

/-- The reading of a section header: name and type, then offset and size, each `wide` bytes. -/
def readFields (map : Buffer) (header offsetAt sizeAt wide : Nat) : Checked SectionFields := do
  let shName ← loadUnsigned map header 4
  let shType ← loadUnsigned map (header + 4) 4
  let shOffset ← loadUnsigned map (header + offsetAt) wide
  let shSize ← loadUnsigned map (header + sizeAt) wide
  .ok ⟨shName, shType, shOffset, shSize⟩

def fieldsFrom (file : Buffer) (header offsetAt sizeAt wide : Nat) : SectionFields :=
  ⟨unsignedAt file header 4, unsignedAt file (header + 4) 4, unsignedAt file (header + offsetAt) wide,
    unsignedAt file (header + sizeAt) wide⟩

theorem readFields_iff (small : file.length < 2 ^ 63) {header offsetAt sizeAt wide : Nat} (ordered : 8 ≤ offsetAt ∧ offsetAt ≤ sizeAt)
    (near : sizeAt + wide ≤ 40) {shdr : SectionFields} :
    readFields file header offsetAt sizeAt wide = .ok shdr ↔
      sizeT header + (sizeAt + wide) ≤ file.length ∧ shdr = fieldsFrom file (sizeT header) offsetAt sizeAt wide := by
  have place (begins : sizeT header ≤ file.length) (more : Nat) (close : more ≤ 40) :
      sizeT (header + more) = sizeT header + more := sizeT_add (by omega)
  unfold readFields fieldsFrom
  constructor
  · intro read
    obtain ⟨shName, first, read⟩ := bind_ok.mp read
    obtain ⟨shType, second, read⟩ := bind_ok.mp read
    obtain ⟨shOffset, third, read⟩ := bind_ok.mp read
    obtain ⟨shSize, fourth, read⟩ := bind_ok.mp read
    obtain ⟨begins, rfl⟩ := loadUnsigned_iff.mp first
    obtain ⟨_, rfl⟩ := loadUnsigned_iff.mp second
    obtain ⟨_, rfl⟩ := loadUnsigned_iff.mp third
    obtain ⟨ends, rfl⟩ := loadUnsigned_iff.mp fourth
    have here := place (by omega)
    rw [here sizeAt (by omega)] at ends
    cases read
    refine ⟨by omega, ?_⟩
    rw [here 4 (by decide), here offsetAt (by omega), here sizeAt (by omega)]
  · intro ⟨inside, same⟩
    have here := place (by omega)
    have second := here 4 (by decide)
    have third := here offsetAt (by omega)
    have fourth := here sizeAt (by omega)
    rw [loadUnsigned_at (by omega), ok_bind, loadUnsigned_at (by omega), ok_bind, loadUnsigned_at (by omega), ok_bind,
      loadUnsigned_at (by omega), ok_bind, same, second, third, fourth]

/-- The section header at an offset. -/
def shdrFrom (file : Buffer) (header : Nat) : SectionFields :=
  if (ehdrAt file).is64 then fieldsFrom file header 24 32 8 else fieldsFrom file header 16 20 4

def shdrSize (file : Buffer) : Nat := if (ehdrAt file).is64 then 40 else 24

theorem readShdr_iff (small : file.length < 2 ^ 63) {index : Nat} {shdr : SectionFields} :
    readShdr file (ehdrAt file) index = .ok shdr ↔
      sizeT (headerAt file index) + shdrSize file ≤ file.length ∧ shdr = shdrFrom file (sizeT (headerAt file index)) := by
  have wide := @readFields_iff file small (headerAt file index) 24 32 8 (by decide) (by decide) shdr
  have narrow := @readFields_iff file small (headerAt file index) 16 20 4 (by decide) (by decide) shdr
  unfold readShdr shdrFrom shdrSize
  dsimp only
  rw [← headerAt]
  split
  next => exact wide
  next => exact narrow

theorem sectionAt_eq (file : Buffer) (index : Nat) : sectionAt file index = shdrFrom file (headerAt file index) := rfl

theorem readEhdr_inside (large : 64 ≤ file.length) :
    readEhdr file (file[4]? = some elfClass64) = .ok (ehdrAt file) := by
  have field (off width : Nat) (near : off + width ≤ 64) : loadUnsigned file off width = .ok (unsignedAt file off width) := by
    have start : sizeT off = off := sizeT_of_lt (by omega)
    rw [loadUnsigned_at (by omega), start]
  unfold readEhdr ehdrAt
  by_cases wide : file[4]? = some elfClass64
  · rw [decide_eq_true wide, if_pos rfl, if_pos wide, field 40 8 (by decide), ok_bind, field 58 2 (by decide), ok_bind,
      field 60 2 (by decide), ok_bind, field 62 2 (by decide), ok_bind]
  · rw [decide_eq_false wide, if_neg Bool.false_ne_true, if_neg wide, field 32 4 (by decide), ok_bind, field 46 2 (by decide), ok_bind,
      field 48 2 (by decide), ok_bind, field 50 2 (by decide), ok_bind]

end Reads

section Names
variable {file : Buffer} {off : Nat} {word : ByteString}

/-- The file does not end within the word. -/
def NameEnds (file : Buffer) (off : Nat) (word : ByteString) : Prop := ¬ file.drop off <+: word

theorem nameEquals_iff (small : file.length < 2 ^ 63) (start : off < file.length) (plain : 0 ∉ word) {equal : Bool} :
    nameEquals file off word = .ok equal ↔ NameEnds file off word ∧ equal = decide (nameAt file off = word) := by
  constructor
  · intro compared
    have ends := compares_of_nameEquals (by omega) (Nat.le_of_lt start) compared
    rw [nameEquals_eq (by omega) plain ends] at compared
    exact ⟨ends, (Except.ok.inj compared).symm⟩
  · intro ⟨ends, same⟩
    rw [nameEquals_eq (by omega) plain ends, same]
    rfl

end Names

section Notes
variable {file : Buffer} {stop position : Nat}

/-- The size of a name or description, padded in 32 bits. -/
def wrapPad (size : Nat) : Nat := clearLow (u32 (size + 3))

def nameSize (file : Buffer) (position : Nat) : Nat := unsignedAt file position 4
def descSize (file : Buffer) (position : Nat) : Nat := unsignedAt file (position + 4) 4
def noteType (file : Buffer) (position : Nat) : Nat := unsignedAt file (position + 8) 4

def descStart (file : Buffer) (position : Nat) : Nat := position + 12 + wrapPad (nameSize file position)

def nextNote (file : Buffer) (position : Nat) : Nat := descStart file position + wrapPad (descSize file position)

/-- A build ID that ends before the region does. -/
def IsBuildId (file : Buffer) (stop position : Nat) : Prop :=
  noteType file position = kNtGnuBuildId ∧ 0 < descSize file position ∧ descStart file position + descSize file position ≤ stop

instance : Decidable (IsBuildId file stop position) := inferInstanceAs (Decidable (_ ∧ _ ∧ _))

/-- From this position on the notes lie in the file, up to a build ID. -/
inductive Identified (file : Buffer) (stop : Nat) : Nat → Prop where
  | here {position : Nat} (header : position + 12 ≤ stop) (inside : position + 12 ≤ file.length)
      (identifies : IsBuildId file stop position) (whole : descStart file position + descSize file position ≤ file.length) :
      Identified file stop position
  | next {position : Nat} (header : position + 12 ≤ stop) (inside : position + 12 ≤ file.length)
      (other : ¬ IsBuildId file stop position) (later : Identified file stop (nextNote file position)) :
      Identified file stop position

theorem wrapPad_lt (size : Nat) : wrapPad size < 2 ^ 32 := by
  have bound := u32_lt (size + 3)
  unfold wrapPad clearLow
  omega

theorem identified_next (header : position + 12 ≤ stop) (inside : position + 12 ≤ file.length) (other : ¬ IsBuildId file stop position) :
    Identified file stop position ↔ Identified file stop (nextNote file position) := by
  constructor
  · intro identified
    cases identified with
    | here _ _ identifies => exact absurd identifies other
    | next _ _ _ later => exact later
  · exact Identified.next header inside other

theorem inside_of_identified (identified : Identified file stop position) :
    position + 12 ≤ stop ∧ position + 12 ≤ file.length ∧
      (IsBuildId file stop position → descStart file position + descSize file position ≤ file.length) := by
  cases identified with
  | here header inside _ whole => exact ⟨header, inside, fun _ => whole⟩
  | next header inside other => exact ⟨header, inside, fun identifies => absurd identifies other⟩

/-- The loop at a note whose three words are in the file. -/
theorem parse_note (small : file.length < 2 ^ 63) {base size rounds pos : Nat} (header : pos + 12 ≤ size)
    (inside : base + pos + 12 ≤ file.length) :
    parseBuildIdNoteFrom file base size (rounds + 1) pos =
      if IsBuildId file (base + size) (base + pos) then
        load file (descStart file (base + pos)) (descSize file (base + pos))
      else parseBuildIdNoteFrom file base size rounds (nextNote file (base + pos) - base) := by
  have nameBound := wrapPad_lt (nameSize file (base + pos))
  have descBound := wrapPad_lt (descSize file (base + pos))
  have descWord : descSize file (base + pos) < 2 ^ 32 := unsignedAt_lt file (base + pos + 4) 4
  have start (more : Nat) (close : more ≤ 12) : sizeT (base + pos + more) = base + pos + more := sizeT_of_lt (by omega)
  have first : loadUnsigned file (base + pos) 4 = .ok (nameSize file (base + pos)) := by
    have here := start 0 (by decide)
    rw [Nat.add_zero] at here
    rw [loadUnsigned_at (by omega), here, nameSize]
  have second : loadUnsigned file (base + pos + 4) 4 = .ok (descSize file (base + pos)) := by
    have here := start 4 (by decide)
    rw [loadUnsigned_at (by omega), here, descSize]
  have third : loadUnsigned file (base + pos + 8) 4 = .ok (noteType file (base + pos)) := by
    have here := start 8 (by decide)
    rw [loadUnsigned_at (by omega), here, noteType]
  have place : base + (pos + 12 + wrapPad (nameSize file (base + pos))) = descStart file (base + pos) := by
    unfold descStart
    omega
  have onward : nextNote file (base + pos) - base =
      pos + 12 + (wrapPad (nameSize file (base + pos)) + wrapPad (descSize file (base + pos))) := by
    unfold nextNote descStart
    omega
  have fits : pos + 12 + wrapPad (nameSize file (base + pos)) + descSize file (base + pos) ≤ size ↔
      descStart file (base + pos) + descSize file (base + pos) ≤ base + size := by
    unfold descStart
    omega
  rw [parseBuildIdNoteFrom, @sizeT_of_lt (pos + 12) (by omega), if_neg (by omega), first, ok_bind, second, ok_bind, third, ok_bind]
  dsimp only
  rw [← wrapPad, ← wrapPad, @sizeT_of_lt (pos + 12 + _) (by omega), @sizeT_of_lt (_ + descSize file (base + pos)) (by omega),
    place, onward, @sizeT_of_lt (pos + 12 + (_ + _)) (by omega), @sizeT_of_lt (descStart file (base + pos)) (by omega)]
  simp only [fits]
  rfl

/-- What the parser makes of a region that ends in the file, or whose end wraps around. -/
theorem notes_from (small : file.length < 2 ^ 63) {base size rounds pos : Nat}
    (region : base + size ≤ file.length ∨ 2 ^ 64 ≤ base + size) (near : base + pos ≤ file.length + 2 ^ 34)
    (enough : size < pos + 12 * (rounds + 1)) :
    (Identified file (base + size) (base + pos) →
      ∃ bid, parseBuildIdNoteFrom file base size rounds pos = .ok bid ∧ bid ≠ []) ∧
    (¬ Identified file (base + size) (base + pos) →
      if base + size ≤ file.length then parseBuildIdNoteFrom file base size rounds pos = .ok []
      else ¬ Safe (parseBuildIdNoteFrom file base size rounds pos)) := by
  -- A region whose end wraps around is never used up inside the file.
  have used (short : size < pos + 12) : base + size ≤ file.length ∧ ¬ Identified file (base + size) (base + pos) := by
    refine ⟨by omega, fun identified => ?_⟩
    have header := (inside_of_identified identified).1
    omega
  induction rounds generalizing pos with
  | zero =>
    obtain ⟨within, nothing⟩ := used (by omega)
    refine ⟨fun identified => absurd identified nothing, fun _ => ?_⟩
    rw [if_pos within]
    rfl
  | succ rounds ih =>
    by_cases short : size < pos + 12
    · obtain ⟨within, nothing⟩ := used short
      refine ⟨fun identified => absurd identified nothing, fun _ => ?_⟩
      rw [if_pos within, parseBuildIdNoteFrom, @sizeT_of_lt (pos + 12) (by omega), if_pos short]
    by_cases inside : base + pos + 12 ≤ file.length
    · rw [parse_note small (Nat.le_of_not_lt short) inside]
      by_cases identifies : IsBuildId file (base + size) (base + pos)
      · rw [if_pos identifies]
        by_cases whole : descStart file (base + pos) + descSize file (base + pos) ≤ file.length
        · refine ⟨fun _ => ⟨_, load_inside whole, ?_⟩, fun absent => absurd (.here (by omega) inside identifies whole) absent⟩
          intro empty
          have length := length_slice whole
          rw [empty, List.length_nil] at length
          exact absurd identifies.2.1 (by omega)
        · refine ⟨fun identified => absurd ((inside_of_identified identified).2.2 identifies) whole, fun _ => ?_⟩
          rw [if_neg fun within => whole (Nat.le_trans identifies.2.2 within)]
          rintro ⟨_, read⟩
          exact whole (inside_of_load read)
      · have nameBound := wrapPad_lt (nameSize file (base + pos))
        have descBound := wrapPad_lt (descSize file (base + pos))
        have onward : base + (nextNote file (base + pos) - base) = nextNote file (base + pos) := by
          unfold nextNote descStart
          omega
        have close : nextNote file (base + pos) ≤ file.length + 2 ^ 34 := by
          unfold nextNote descStart
          omega
        have further : pos + 12 ≤ nextNote file (base + pos) - base := by
          unfold nextNote descStart
          omega
        have later := @ih (nextNote file (base + pos) - base) (by omega) (by omega) fun shorter => ⟨by omega, fun identified => by
          have header := (inside_of_identified identified).1
          omega⟩
        rw [onward] at later
        rw [if_neg identifies, identified_next (by omega) inside identifies]
        exact later
    · refine ⟨fun identified => absurd (inside_of_identified identified).2.1 inside, fun _ => ?_⟩
      rw [if_neg (by omega)]
      rintro ⟨bid, ran⟩
      rw [parseBuildIdNoteFrom, @sizeT_of_lt (pos + 12) (by omega), if_neg short] at ran
      obtain ⟨_, _, ran⟩ := bind_ok.mp ran
      obtain ⟨_, _, ran⟩ := bind_ok.mp ran
      obtain ⟨_, third, _⟩ := bind_ok.mp ran
      have last := (loadUnsigned_iff.mp third).1
      rw [@sizeT_of_lt (base + pos + 8) (by omega)] at last
      exact inside last

/-- The notes of a region lie in the file, as far as they are read. -/
def NotesInside (file : Buffer) (off size : Nat) : Prop :=
  size < 12 ∨ off + size ≤ file.length ∨ Identified file (off + size) off

theorem notes_of_region (small : file.length < 2 ^ 63) {off size : Nat} (bounded : off < 2 ^ 64)
    (sum : sizeT (off + size) ≤ file.length) :
    (Identified file (off + size) off → ∃ bid, parseBuildIdNote file off size = .ok bid ∧ bid ≠ []) ∧
    (¬ Identified file (off + size) off → NotesInside file off size → parseBuildIdNote file off size = .ok []) ∧
    (Safe (parseBuildIdNote file off size) → NotesInside file off size) := by
  have region : off + size ≤ file.length ∨ 2 ^ 64 ≤ off + size := by
    by_cases exact_sum : off + size < 2 ^ 64
    · rw [sizeT_of_lt exact_sum] at sum
      exact Or.inl sum
    · exact Or.inr (Nat.le_of_not_lt exact_sum)
  by_cases start : off ≤ file.length
  · obtain ⟨found, missed⟩ := @notes_from file small off size size 0 region (by omega) (by omega)
    rw [Nat.add_zero] at found missed
    refine ⟨found, ?_, ?_⟩
    · intro nothing inside
      have within : off + size ≤ file.length := by
        rcases inside with short | within | identified
        · omega
        · exact within
        · exact absurd identified nothing
      have ended := missed nothing
      rw [if_pos within] at ended
      exact ended
    · intro safe
      by_contra outside
      have absent := missed fun identified => outside (Or.inr (Or.inr identified))
      rw [if_neg fun within => outside (Or.inr (Or.inl within))] at absent
      exact absent safe
  -- Past the file there is nothing to read, and no room for a note is all that helps.
  · have nothing : ¬ Identified file (off + size) off := by
      intro identified
      have inside := (inside_of_identified identified).2.1
      omega
    refine ⟨fun identified => absurd identified nothing, fun _ inside => ?_, fun ⟨bid, ran⟩ => ?_⟩
    · rcases inside with short | within | identified
      · exact daemon_parseBuildIdNote_short short
      · omega
      · exact absurd identified nothing
    · by_contra outside
      have long : ¬ size < 12 := fun short => outside (Or.inl short)
      obtain ⟨rounds, rfl⟩ : ∃ rounds, size = rounds + 1 := ⟨size - 1, by omega⟩
      rw [parseBuildIdNote, parseBuildIdNoteFrom, @sizeT_of_lt (0 + 12) (by decide), if_neg (by omega)] at ran
      obtain ⟨_, first, _⟩ := bind_ok.mp ran
      have inside := (loadUnsigned_iff.mp first).1
      rw [@sizeT_of_lt (off + 0) bounded] at inside
      omega

end Notes

section Sections
variable {file : Buffer} {index : Nat}

/-- The notes of a section, as far as they are looked at. -/
def NotesRead (file : Buffer) (index : Nat) : Prop :=
  nameOffset file index < file.length ∧ (sectionAt file index).shType = shtNote ∧ nameAt file (nameOffset file index) = noteName ∧
    sizeT ((sectionAt file index).shOffset + (sectionAt file index).shSize) ≤ file.length

/-- The search ends at a section. -/
def HasId (file : Buffer) (index : Nat) : Prop :=
  NotesRead file index ∧
    Identified file ((sectionAt file index).shOffset + (sectionAt file index).shSize) (sectionAt file index).shOffset

/-- What is read of a section lies in the file. -/
structure SectionInside (file : Buffer) (index : Nat) : Prop where
  header : headerEnd file index ≤ file.length
  noteName : nameOffset file index < file.length → (sectionAt file index).shType = shtNote →
    NameEnds file (nameOffset file index) noteName
  textName : nameOffset file index < file.length → (sectionAt file index).shType = shtProgbits → (daemonText file index).1 = 0 →
    NameEnds file (nameOffset file index) textName
  notes : NotesRead file index → NotesInside file (sectionAt file index).shOffset (sectionAt file index).shSize

theorem shOffset_lt (file : Buffer) (index : Nat) : (sectionAt file index).shOffset < 2 ^ 64 := by
  unfold sectionAt
  split
  next => exact unsignedAt_lt _ _ 8
  next => exact Nat.lt_trans (unsignedAt_lt _ _ 4) (by decide)

theorem noteBuildId_ok (small : file.length < 2 ^ 63) (inside : nameOffset file index < file.length)
    (ends : (sectionAt file index).shType = shtNote → NameEnds file (nameOffset file index) noteName)
    (notes : NotesRead file index → NotesInside file (sectionAt file index).shOffset (sectionAt file index).shSize) :
    ∃ bid, noteBuildId file file.length (nameOffset file index) (sectionAt file index) = .ok bid ∧ (bid ≠ [] ↔ HasId file index) := by
  unfold noteBuildId
  by_cases kind : (sectionAt file index).shType = shtNote
  · rw [if_pos kind, ← noteName, (nameEquals_iff small inside (by decide)).mpr ⟨ends kind, rfl⟩, ok_bind]
    by_cases read : NotesRead file index
    · have parsed := notes_of_region small (shOffset_lt file index) read.2.2.2
      rw [if_pos ⟨decide_eq_true read.2.2.1, read.2.2.2⟩]
      by_cases identified : Identified file ((sectionAt file index).shOffset + (sectionAt file index).shSize) (sectionAt file index).shOffset
      · obtain ⟨bid, given, some⟩ := parsed.1 identified
        exact ⟨bid, given, fun _ => ⟨read, identified⟩, fun _ => some⟩
      · have ended := parsed.2.1 identified (notes read)
        exact ⟨[], ended, fun some => absurd rfl some, fun hasId => absurd hasId.2 identified⟩
    · rw [if_neg fun chosen => read ⟨inside, kind, of_decide_eq_true chosen.1, chosen.2⟩]
      exact ⟨[], rfl, fun some => absurd rfl some, fun hasId => absurd hasId.1 read⟩
  · rw [if_neg kind]
    exact ⟨[], rfl, fun some => absurd rfl some, fun hasId => absurd hasId.1.2.1 kind⟩

theorem inside_of_noteBuildId (small : file.length < 2 ^ 63) (inside : nameOffset file index < file.length) {bid : List UInt8}
    (read : noteBuildId file file.length (nameOffset file index) (sectionAt file index) = .ok bid) :
    ((sectionAt file index).shType = shtNote → NameEnds file (nameOffset file index) noteName) ∧
    (NotesRead file index → NotesInside file (sectionAt file index).shOffset (sectionAt file index).shSize) := by
  unfold noteBuildId at read
  by_cases kind : (sectionAt file index).shType = shtNote
  · rw [if_pos kind, ← noteName] at read
    obtain ⟨named, compared, parsed⟩ := bind_ok.mp read
    obtain ⟨ends, rfl⟩ := (nameEquals_iff small inside (by decide)).mp compared
    refine ⟨fun _ => ends, fun noted => ?_⟩
    rw [if_pos ⟨decide_eq_true noted.2.2.1, noted.2.2.2⟩] at parsed
    exact (notes_of_region small (shOffset_lt file index) noted.2.2.2).2.2 ⟨bid, parsed⟩
  · exact ⟨fun note => absurd note kind, fun noted => absurd noted.2.1 kind⟩

theorem isText_iff (small : file.length < 2 ^ 63) (inside : nameOffset file index < file.length) {textOff : Nat} {text : Bool} :
    isText file (nameOffset file index) (sectionAt file index) textOff = .ok text ↔
      ((sectionAt file index).shType = shtProgbits → textOff = 0 → NameEnds file (nameOffset file index) textName) ∧
        text = decide (textOff = 0 ∧ (textOf file index).isSome) := by
  unfold isText textOf
  dsimp only
  by_cases kind : (sectionAt file index).shType = shtProgbits
  · by_cases fresh : textOff = 0
    · rw [if_pos ⟨kind, fresh⟩, ← textName, nameEquals_iff small inside (by decide)]
      by_cases named : nameAt file (nameOffset file index) = textName <;> simp [kind, fresh, named, inside]
    · rw [if_neg fun chosen => fresh chosen.2, decide_eq_false fun chosen => fresh chosen.1, Except.ok.injEq]
      exact ⟨fun same => ⟨fun _ start => absurd start fresh, same.symm⟩, fun same => same.2.symm⟩
  · rw [if_neg fun chosen => kind chosen.1, if_neg fun chosen => kind chosen.2.1, Option.isSome_none, Except.ok.injEq]
    simp [kind, @eq_comm _ false]

theorem visit_ok (small : file.length < 2 ^ 63) (names : strtab file < file.length) (section_inside : SectionInside file index) :
    ∃ visit, visitSection file file.length (strtab file) (sectionAt file index) (daemonText file index).1 (daemonText file index).2 =
        .ok visit ∧
      (HasId file index → ∃ bid, visit = .found bid) ∧
      (¬ HasId file index → visit = .goOn (daemonText file (index + 1)).1 (daemonText file (index + 1)).2) := by
  have nameBound := shName_lt file index
  unfold visitSection
  rw [sizeT_of_lt (by omega), ← nameOffset]
  by_cases inside : nameOffset file index < file.length
  · obtain ⟨bid, noted, identifies⟩ := noteBuildId_ok small inside (section_inside.noteName inside) section_inside.notes
    rw [if_neg (Nat.not_le_of_lt inside)]
    dsimp only
    rw [noted, ok_bind]
    by_cases hasId : HasId file index
    · rw [if_pos (identifies.mpr hasId)]
      exact ⟨_, rfl, fun _ => ⟨bid, rfl⟩, fun absent => absurd hasId absent⟩
    · rw [if_neg fun some => hasId (identifies.mp some), (isText_iff small inside).mpr ⟨section_inside.textName inside, rfl⟩, ok_bind]
      refine ⟨_, rfl, fun found => absurd found hasId, fun _ => ?_⟩
      rw [daemonText, daemonNext]
      cases seen : textOf file index with
      | none => simp
      | some place =>
        by_cases fresh : (daemonText file index).1 = 0
        · have same := textOf_eq_some seen
          simp [fresh, same]
        · simp [fresh]
  · have noText : textOf file index = none := if_neg fun text => inside text.1
    rw [if_pos (Nat.le_of_not_lt inside)]
    refine ⟨_, rfl, fun hasId => absurd hasId.1.1 inside, fun _ => ?_⟩
    rw [daemonText, daemonNext, noText]
    simp

theorem inside_of_visit (small : file.length < 2 ^ 63) (names : strtab file < file.length) (header : headerEnd file index ≤ file.length)
    {visit : Visit}
    (visited : visitSection file file.length (strtab file) (sectionAt file index) (daemonText file index).1 (daemonText file index).2 =
      .ok visit) : SectionInside file index := by
  have nameBound := shName_lt file index
  unfold visitSection at visited
  rw [sizeT_of_lt (by omega), ← nameOffset] at visited
  by_cases inside : nameOffset file index < file.length
  · rw [if_neg (Nat.not_le_of_lt inside)] at visited
    obtain ⟨bid, noted, later⟩ := bind_ok.mp visited
    obtain ⟨noteEnds, notes⟩ := inside_of_noteBuildId small inside noted
    refine ⟨header, fun _ => noteEnds, fun _ kind fresh => ?_, notes⟩
    have other : (sectionAt file index).shType ≠ shtNote := by
      rw [kind]
      decide
    have noNote : noteBuildId file file.length (nameOffset file index) (sectionAt file index) = .ok [] := if_neg other
    rw [noNote] at noted
    cases noted
    rw [if_neg (not_not.mpr rfl)] at later
    obtain ⟨text, compared, _⟩ := bind_ok.mp later
    exact ((isText_iff small inside).mp compared).1 kind fresh
  · exact ⟨header, fun within => absurd within inside, fun within => absurd within inside, fun noted => absurd noted.1 inside⟩

end Sections

section Search
variable {file : Buffer} {index : Nat}

/-- No section before this one ends the search. -/
def NoId (file : Buffer) (index : Nat) : Prop := ∀ earlier < index, ¬ HasId file earlier

/-- The fallback gives up, or its chunks end in the file. -/
def TextInside (file : Buffer) (text : Nat × Nat) : Prop :=
  text.1 = 0 ∨ GivesUp file text ∨ text.1 + 16 * ((min text.2 4096 + 15) / 16) ≤ file.length

theorem NoId.next (noId : NoId file index) (none : ¬ HasId file index) : NoId file (index + 1) := by
  intro earlier before
  rcases Nat.lt_succ_iff_lt_or_eq.mp before with sooner | rfl
  · exact noId earlier sooner
  · exact none

theorem safe_xorTextSection_iff (small : file.length < 2 ^ 63) {textOff textSize : Nat} (bounded : textOff < 2 ^ 64) (some : textSize ≠ 0) :
    Safe (xorTextSection file textOff textSize) ↔ textOff + 16 * ((min textSize 4096 + 15) / 16) ≤ file.length := by
  unfold xorTextSection
  dsimp only [kXorHashSize, kXorMaxBytes]
  rw [zeros_eq]
  constructor
  · intro ⟨bid, ended⟩
    exact inside_of_xorChunks (by omega) bounded (by omega) _ ended
  · intro inside
    exact ⟨_, xorChunks_eq (by omega) _ inside⟩

theorem daemonText_bounded (file : Buffer) (index : Nat) : (daemonText file index).1 < 2 ^ 64 := by
  rcases daemonText_eq file index with ⟨chosen, found, kept⟩ | ⟨_, zero⟩
  · rw [kept]
    exact text_bounded (List.mem_of_find?_eq_some found)
  · omega

theorem safe_fallback_iff (small : file.length < 2 ^ 63) (ehdr : Ehdr) (strtab : Nat) :
    Safe (searchSections file file.length ehdr strtab 0 index (daemonText file index).1 (daemonText file index).2) ↔
      TextInside file (daemonText file index) := by
  unfold searchSections TextInside GivesUp
  by_cases none : (daemonText file index).1 = 0
  · simp [none]
  by_cases empty : (daemonText file index).2 = 0
  · simp [empty]
  by_cases beyond : file.length < sizeT ((daemonText file index).1 + (daemonText file index).2)
  · simp [beyond]
  rw [if_neg (by tauto), safe_xorTextSection_iff small (daemonText_bounded file index) empty]
  tauto

theorem safe_search_iff (small : file.length < 2 ^ 63) (names : strtab file < file.length)
    (bounded : ∀ index < (ehdrAt file).eShnum, headerAt file index + 40 < 2 ^ 64) {remaining : Nat}
    (rest : index + remaining = (ehdrAt file).eShnum) (noId : NoId file index) :
    Safe (searchSections file file.length (ehdrAt file) (strtab file) remaining index (daemonText file index).1 (daemonText file index).2) ↔
      (∀ later, index ≤ later → later < (ehdrAt file).eShnum → NoId file later → SectionInside file later) ∧
        (NoId file (ehdrAt file).eShnum → TextInside file (daemonText file (ehdrAt file).eShnum)) := by
  induction remaining generalizing index with
  | zero =>
    rw [Nat.add_zero] at rest
    rw [safe_fallback_iff small, ← rest]
    constructor
    · intro text
      exact ⟨fun later after before => absurd before (Nat.not_lt_of_le after), fun _ => text⟩
    · intro inside
      exact inside.2 noId
  | succ remaining ih =>
    have here : index < (ehdrAt file).eShnum := by omega
    have place : sizeT (headerAt file index) = headerAt file index := sizeT_of_lt (Nat.lt_of_le_of_lt (Nat.le_add_right _ _) (bounded index here))
    have shdr := @readShdr_iff file small index (sectionAt file index)
    rw [place] at shdr
    rw [searchSections, safe_bind]
    constructor
    · rintro ⟨read, header, later⟩
      obtain ⟨ends, rfl⟩ := (readShdr_iff small).mp header
      rw [place, ← sectionAt_eq] at later
      rw [place] at ends
      obtain ⟨visit, visited, later⟩ := safe_bind.mp later
      have section_inside := inside_of_visit small names ends visited
      obtain ⟨same, given, found, missed⟩ := visit_ok small names section_inside
      rw [given] at visited
      cases visited
      by_cases hasId : HasId file index
      · refine ⟨fun other after before onward => ?_, fun none => absurd hasId (none index here)⟩
        rcases Nat.eq_or_lt_of_le after with rfl | further
        · exact section_inside
        · exact absurd hasId (onward index further)
      · rw [missed hasId] at later
        obtain ⟨sections, text⟩ := (ih (by omega) (noId.next hasId)).mp later
        refine ⟨fun other after before onward => ?_, text⟩
        rcases Nat.eq_or_lt_of_le after with rfl | further
        · exact section_inside
        · exact sections other further before onward
    · rintro ⟨sections, text⟩
      have section_inside := sections index (Nat.le_refl index) here noId
      obtain ⟨visit, visited, found, missed⟩ := visit_ok small names section_inside
      refine ⟨_, shdr.mpr ⟨section_inside.header, rfl⟩, ?_⟩
      rw [visited, ok_bind]
      by_cases hasId : HasId file index
      · obtain ⟨bid, rfl⟩ := found hasId
        exact ⟨bid, rfl⟩
      · rw [missed hasId]
        exact (ih (by omega) (noId.next hasId)).mpr ⟨fun other after => sections other (by omega), text⟩

end Search

/-- What is read of the sections and of the text lies in the file. -/
structure SearchInside (file : Buffer) : Prop where
  sections : ∀ index < (ehdrAt file).eShnum, NoId file index → SectionInside file index
  text : NoId file (ehdrAt file).eShnum → TextInside file (daemonText file (ehdrAt file).eShnum)

/-- The daemon reads nothing past the file: it gives up early, or the header of the names and what the search looks at lie in it. -/
def ReadsInside (file : Buffer) : Prop :=
  file.take 4 ≠ elfMagic ∨ (ehdrAt file).eShoff = 0 ∨ (ehdrAt file).eShstrndx = 0 ∨ file.length < sizeT (tableEnd file) ∨
    sizeT (headerAt file (ehdrAt file).eShstrndx) + shdrSize file ≤ file.length ∧
      (file.length ≤ (shdrFrom file (sizeT (headerAt file (ehdrAt file).eShstrndx))).shOffset ∨
        (ehdrAt file).eShoff ≤ file.length ∧ SearchInside file)

section Entry
variable {file : Buffer}

/-- The function from the section table on. -/
def readTable (file : Buffer) : Checked (List UInt8) :=
  if (ehdrAt file).eShoff = 0 ∨ (ehdrAt file).eShstrndx = 0 ∨ file.length < sizeT (tableEnd file) then .ok []
  else do
    let strtabShdr ← readShdr file (ehdrAt file) (ehdrAt file).eShstrndx
    if file.length ≤ strtabShdr.shOffset then .ok []
    else searchSections file file.length (ehdrAt file) strtabShdr.shOffset (ehdrAt file).eShnum 0 0 0

theorem compute_eq (large : 64 ≤ file.length) :
    computeElfBuildId file file.length = if file.take 4 ≠ elfMagic then .ok [] else readTable file := by
  have inside : 4 < file.length := by omega
  have elfClass : (file[4] = elfClass64) = (file[4]? = some elfClass64) := by
    rw [List.getElem?_eq_getElem inside, Option.some.injEq]
  unfold computeElfBuildId
  rw [if_neg (Nat.not_lt_of_le large), load_inside (by omega), ok_bind]
  split
  next other => exact (if_pos other).symm
  next magic =>
    refine Eq.trans ?_ (if_neg magic).symm
    rw [loadByte_inside inside, ok_bind]
    simp only [elfClass]
    rw [readEhdr_inside large, ok_bind]
    rfl

theorem eShoff_lt (file : Buffer) : (ehdrAt file).eShoff < 2 ^ 64 := by
  unfold ehdrAt
  split
  next => exact unsignedAt_lt _ _ 8
  next => exact Nat.lt_trans (unsignedAt_lt _ _ 4) (by decide)

/-- A table that begins past the file does so with its first header. -/
theorem not_safe_of_table_beyond (small : file.length < 2 ^ 63) (fits : sizeT (tableEnd file) ≤ file.length)
    (beyond : file.length < (ehdrAt file).eShoff) (strtab : Nat) :
    ¬ Safe (searchSections file file.length (ehdrAt file) strtab (ehdrAt file).eShnum 0 0 0) := by
  have start := eShoff_lt file
  have some : (ehdrAt file).eShnum ≠ 0 := by
    intro none
    rw [tableEnd, none, Nat.zero_mul, Nat.add_zero, sizeT_of_lt start] at fits
    omega
  obtain ⟨remaining, count⟩ := Nat.exists_eq_succ_of_ne_zero some
  rw [count, searchSections, safe_bind]
  rintro ⟨shdr, header, _⟩
  have inside := ((readShdr_iff small).mp header).1
  have first : headerAt file 0 = (ehdrAt file).eShoff := by rw [headerAt, Nat.zero_mul, Nat.add_zero]
  rw [first, sizeT_of_lt start] at inside
  omega

theorem safe_readTable_iff (small : file.length < 2 ^ 63)
    (given : ¬ ((ehdrAt file).eShoff = 0 ∨ (ehdrAt file).eShstrndx = 0 ∨ file.length < sizeT (tableEnd file))) :
    Safe (readTable file) ↔ sizeT (headerAt file (ehdrAt file).eShstrndx) + shdrSize file ≤ file.length ∧
      (file.length ≤ (shdrFrom file (sizeT (headerAt file (ehdrAt file).eShstrndx))).shOffset ∨
        (ehdrAt file).eShoff ≤ file.length ∧ SearchInside file) := by
  have fits : sizeT (tableEnd file) ≤ file.length := Nat.le_of_not_lt fun beyond => given (Or.inr (Or.inr beyond))
  have counts := counts_bounded file
  have searched (start : (ehdrAt file).eShoff ≤ file.length)
      (inside : ¬ file.length ≤ (shdrFrom file (sizeT (headerAt file (ehdrAt file).eShstrndx))).shOffset) :
      Safe (searchSections file file.length (ehdrAt file) (shdrFrom file (sizeT (headerAt file (ehdrAt file).eShstrndx))).shOffset
        (ehdrAt file).eShnum 0 0 0) ↔ SearchInside file := by
    have place := sizeT_of_lt (Nat.lt_of_le_of_lt (Nat.le_add_right _ _) (header_small small start counts.2))
    rw [place, ← sectionAt_eq, ← strtab] at inside ⊢
    have search := safe_search_iff small (Nat.lt_of_not_le inside) (fun index before => header_small small start (by omega))
      (Nat.zero_add (ehdrAt file).eShnum) fun earlier before => absurd before (Nat.not_lt_zero earlier)
    refine search.trans ⟨fun ⟨sections, text⟩ => ⟨fun index => sections index (Nat.zero_le index), text⟩, fun ⟨sections, text⟩ => ?_⟩
    exact ⟨fun index _ => sections index, text⟩
  rw [readTable, if_neg given, safe_bind]
  constructor
  · intro ⟨shdr, header, later⟩
    obtain ⟨names, rfl⟩ := (readShdr_iff small).mp header
    refine ⟨names, ?_⟩
    by_cases outside : file.length ≤ (shdrFrom file (sizeT (headerAt file (ehdrAt file).eShstrndx))).shOffset
    · exact Or.inl outside
    · rw [if_neg outside] at later
      have start : (ehdrAt file).eShoff ≤ file.length := by
        by_contra beyond
        exact not_safe_of_table_beyond small fits (Nat.lt_of_not_le beyond) _ later
      exact Or.inr ⟨start, (searched start outside).mp later⟩
  · intro ⟨names, rest⟩
    refine ⟨_, (readShdr_iff small).mpr ⟨names, rfl⟩, ?_⟩
    by_cases outside : file.length ≤ (shdrFrom file (sizeT (headerAt file (ehdrAt file).eShstrndx))).shOffset
    · rw [if_pos outside]
      exact ⟨[], rfl⟩
    · obtain ⟨start, search⟩ := rest.resolve_left outside
      rw [if_neg outside]
      exact (searched start outside).mpr search

end Entry

theorem reads_inside_iff (file : FileContent) (large : 64 ≤ file.bytes.length) :
    Safe (computeElfBuildId file.bytes file.bytes.length) ↔ ReadsInside file.bytes := by
  rw [compute_eq large, ReadsInside]
  by_cases magic : file.bytes.take 4 = elfMagic
  · by_cases given : (ehdrAt file.bytes).eShoff = 0 ∨ (ehdrAt file.bytes).eShstrndx = 0 ∨ file.bytes.length < sizeT (tableEnd file.bytes)
    · rw [if_neg (not_not.mpr magic), readTable, if_pos given]
      refine ⟨fun _ => Or.inr ?_, fun _ => ⟨[], rfl⟩⟩
      rcases given with shoff | strndx | beyond
      · exact Or.inl shoff
      · exact Or.inr (Or.inl strndx)
      · exact Or.inr (Or.inr (Or.inl beyond))
    · rw [if_neg (not_not.mpr magic), safe_readTable_iff file.fits given]
      tauto
  · rw [if_pos magic]
    exact ⟨fun _ => Or.inl magic, fun _ => ⟨[], rfl⟩⟩

/-- A file whose text lies inside it. -/
theorem textInside_read_inside : ReadsInside textInside := by
  apply (reads_inside_iff ⟨textInside, by decide +kernel⟩ (by decide +kernel)).mp
  have ended : ∃ bid, computeElfBuildId textInside textInside.length = .ok bid := by
    refine ⟨(computeElfBuildId textInside textInside.length).toOption.getD [], ?_⟩
    decide +kernel
  exact ended

/-- The header of the names lies past the end of the file. -/
theorem noNames_read_past : ¬ ∀ file : FileContent, 64 ≤ file.bytes.length → Safe (computeElfBuildId file.bytes file.bytes.length) := by
  intro all
  obtain ⟨bid, ended⟩ := all ⟨noNames, by decide +kernel⟩ (by decide +kernel)
  have fault : (computeElfBuildId noNames noNames.length).toOption = none := by decide +kernel
  rw [ended] at fault
  cases fault

end Crashomon.Proofs.ElfBounds
