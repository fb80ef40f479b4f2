import Crashomon.Proofs.ElfReads

/-! The daemon and the tools compute build IDs from one file. They agree where neither reads past
the file, no sum wraps and the offset 0 stands for nothing. -/

namespace Crashomon.Proofs.ElfAgreement
open Bytes Memory ElfNotes ElfReads
open Daemon.ElfBuildId (mapFile sizeT sizeT_of_lt sizeT_le SectionFields Ehdr elfClass64 shtNote shtProgbits)

section Table
variable (file : Buffer)

/-- The location of the section table. -/
def ehdrAt : Ehdr :=
  if file[4]? = some elfClass64 then
    ⟨true, unsignedAt file 40 8, unsignedAt file 58 2, unsignedAt file 60 2, unsignedAt file 62 2⟩
  else ⟨false, unsignedAt file 32 4, unsignedAt file 46 2, unsignedAt file 48 2, unsignedAt file 50 2⟩

def headerAt (index : Nat) : Nat := (ehdrAt file).eShoff + index * (ehdrAt file).eShentsize

def headerEnd (index : Nat) : Nat := headerAt file index + if (ehdrAt file).is64 then 40 else 24

def sectionAt (index : Nat) : SectionFields :=
  if (ehdrAt file).is64 then
    ⟨unsignedAt file (headerAt file index) 4, unsignedAt file (headerAt file index + 4) 4,
      unsignedAt file (headerAt file index + 24) 8, unsignedAt file (headerAt file index + 32) 8⟩
  else
    ⟨unsignedAt file (headerAt file index) 4, unsignedAt file (headerAt file index + 4) 4,
      unsignedAt file (headerAt file index + 16) 4, unsignedAt file (headerAt file index + 20) 4⟩

/-- The offset of the section names. -/
def strtab : Nat := (sectionAt file (ehdrAt file).eShstrndx).shOffset

def nameOffset (index : Nat) : Nat := strtab file + (sectionAt file index).shName

def noteName : ByteString := ascii ".note.gnu.build-id"

def textName : ByteString := ascii ".text"

/-- The build ID that a section has. -/
def buildIdOf (index : Nat) : Option (List UInt8) :=
  let shdr := sectionAt file index
  if nameOffset file index < file.length ∧ shdr.shType = shtNote ∧ nameAt file (nameOffset file index) = noteName ∧
      shdr.shOffset + shdr.shSize ≤ file.length then
    firstBuildId file shdr.shOffset shdr.shSize
  else none

/-- Where the text is, in a section of that name. -/
def textOf (index : Nat) : Option (Nat × Nat) :=
  let shdr := sectionAt file index
  if nameOffset file index < file.length ∧ shdr.shType = shtProgbits ∧ nameAt file (nameOffset file index) = textName then
    some (shdr.shOffset, shdr.shSize)
  else none

def textsBefore (index : Nat) : List (Nat × Nat) := (List.range index).filterMap (textOf file)

/-- No section before this one has a build ID. -/
def Reached (index : Nat) : Prop := ∀ earlier < index, buildIdOf file earlier = none

/-- No sum wraps on the way through the notes of a section. -/
def ExactNotes (index : Nat) : Prop :=
  let shdr := sectionAt file index
  nameOffset file index < file.length → shdr.shType = shtNote → nameAt file (nameOffset file index) = noteName →
    sizeT (shdr.shOffset + shdr.shSize) ≤ file.length →
    shdr.shOffset + shdr.shSize ≤ file.length ∧
        Straight (shdr.shOffset + shdr.shSize) (notesFrom file (shdr.shOffset + shdr.shSize) shdr.shSize shdr.shOffset) ∨
      file.length < shdr.shOffset + shdr.shSize ∧ shdr.shSize < 12

/-- What has to hold of a section for both to read it the same way; `bound` is where its header has to end. -/
structure Plain (bound index : Nat) : Prop where
  header : headerEnd file index ≤ bound
  noteName : nameOffset file index < file.length → (sectionAt file index).shType = shtNote →
    Compares file (nameOffset file index) noteName
  textName : nameOffset file index < file.length → (sectionAt file index).shType = shtProgbits →
    (∀ text ∈ textsBefore file index, text.1 = 0) → Compares file (nameOffset file index) textName
  notes : ExactNotes file index

/-- The sections that are reached are plain. -/
def PlainTable (bound : Nat) : Prop := ∀ index < (ehdrAt file).eShnum, Reached file index → Plain file bound index

/-- The daemon makes nothing of a text. -/
def GivesUp (text : Nat × Nat) : Prop := text.2 = 0 ∨ file.length < sizeT (text.1 + text.2)

/-- The texts of the sections; the daemon takes the first whose offset is not 0, the tool the first. -/
def TextsAlike : List (Nat × Nat) → Prop
  | [] => True
  | first :: later =>
    if first.1 = 0 then first.2 = 0 ∧ ∀ chosen, later.find? (·.1 ≠ 0) = some chosen → GivesUp file chosen
    else first.2 = 0 ∨
      sizeT (first.1 + first.2) ≤ file.length ∧ first.1 + 16 * ((min first.2 4096 + 15) / 16) ≤ (mapFile file).length

end Table

section Headers
variable {file : Buffer} {index : Nat}

theorem ehdrAt_is64 (file : Buffer) : (ehdrAt file).is64 = decide (file[4]? = some elfClass64) := by
  unfold ehdrAt
  split
  next wide => exact (decide_eq_true wide).symm
  next narrow => exact (decide_eq_false narrow).symm

theorem daemon_readEhdr (small : file.length < 2 ^ 63) (large : 64 ≤ file.length) :
    Daemon.ElfBuildId.readEhdr (mapFile file) (file[4]? = some elfClass64) = .ok (ehdrAt file) := by
  have bounds := mapFile_bounds file
  unfold Daemon.ElfBuildId.readEhdr ehdrAt
  by_cases wide : file[4]? = some elfClass64
  · rw [decide_eq_true wide, if_pos rfl, if_pos wide]
    simp only [@loadUnsigned_mapFile file small 40 8 (by omega), @loadUnsigned_mapFile file small 58 2 (by omega),
      @loadUnsigned_mapFile file small 60 2 (by omega), @loadUnsigned_mapFile file small 62 2 (by omega),
      Memory.ok_bind]
  · rw [decide_eq_false wide, if_neg Bool.false_ne_true, if_neg wide]
    simp only [@loadUnsigned_mapFile file small 32 4 (by omega), @loadUnsigned_mapFile file small 46 2 (by omega),
      @loadUnsigned_mapFile file small 48 2 (by omega), @loadUnsigned_mapFile file small 50 2 (by omega),
      Memory.ok_bind]

theorem tool_readEhdr (whole : (if (ehdrAt file).is64 then 64 else 52) ≤ file.length) :
    Tools.ElfBuildId.readEhdr file (ehdrAt file).is64 =
      .ok ((ehdrAt file).eShoff, (ehdrAt file).eShentsize, (ehdrAt file).eShnum, (ehdrAt file).eShstrndx) := by
  unfold Tools.ElfBuildId.readEhdr
  unfold ehdrAt at whole ⊢
  by_cases wide : file[4]? = some elfClass64
  · simp only [if_pos wide, if_true] at whole ⊢
    simp only [@Python.unpackUnsigned_inside file 40 8 (by omega),
      @Python.unpackUnsigned_inside file 58 2 (by omega),
      @Python.unpackUnsigned_inside file 60 2 (by omega),
      @Python.unpackUnsigned_inside file 62 2 (by omega), Python.ok_bind]
  · simp only [if_neg wide, Bool.false_eq_true, if_false] at whole ⊢
    simp only [@Python.unpackUnsigned_inside file 32 4 (by omega),
      @Python.unpackUnsigned_inside file 46 2 (by omega),
      @Python.unpackUnsigned_inside file 48 2 (by omega),
      @Python.unpackUnsigned_inside file 50 2 (by omega), Python.ok_bind]

theorem daemon_readShdr (small : file.length < 2 ^ 63) (inside : headerEnd file index ≤ (mapFile file).length) :
    Daemon.ElfBuildId.readShdr (mapFile file) (ehdrAt file) index = .ok (sectionAt file index) := by
  unfold headerEnd at inside
  unfold Daemon.ElfBuildId.readShdr sectionAt
  dsimp only
  rw [← headerAt]
  split at inside
  next wide =>
    rw [if_pos wide, if_pos wide, loadUnsigned_mapFile small (by omega), Memory.ok_bind, loadUnsigned_mapFile small (by omega), Memory.ok_bind,
      loadUnsigned_mapFile small (by omega), Memory.ok_bind, loadUnsigned_mapFile small (by omega), Memory.ok_bind]
  next narrow =>
    rw [if_neg narrow, if_neg narrow, loadUnsigned_mapFile small (by omega), Memory.ok_bind, loadUnsigned_mapFile small (by omega),
      Memory.ok_bind, loadUnsigned_mapFile small (by omega), Memory.ok_bind, loadUnsigned_mapFile small (by omega), Memory.ok_bind]

theorem tool_readShdr (inside : headerEnd file index ≤ file.length) :
    Tools.ElfBuildId.readShdr file (ehdrAt file).eShoff (ehdrAt file).eShentsize index (ehdrAt file).is64 =
      .ok ((sectionAt file index).shName, (sectionAt file index).shType, (sectionAt file index).shOffset,
        (sectionAt file index).shSize) := by
  unfold headerEnd at inside
  unfold Tools.ElfBuildId.readShdr sectionAt
  dsimp only
  rw [← headerAt]
  split at inside
  next wide =>
    rw [if_pos wide, if_pos wide, Python.unpackUnsigned_inside (by omega), Python.ok_bind, Python.unpackUnsigned_inside (by omega),
      Python.ok_bind, Python.unpackUnsigned_inside (by omega), Python.ok_bind, Python.unpackUnsigned_inside (by omega), Python.ok_bind]
  next narrow =>
    rw [if_neg narrow, if_neg narrow, Python.unpackUnsigned_inside (by omega), Python.ok_bind, Python.unpackUnsigned_inside (by omega),
      Python.ok_bind, Python.unpackUnsigned_inside (by omega), Python.ok_bind, Python.unpackUnsigned_inside (by omega), Python.ok_bind]

end Headers

section Sections
variable {file : Buffer} {bound index : Nat}

theorem shName_lt (file : Buffer) (index : Nat) : (sectionAt file index).shName < 2 ^ 32 := by
  unfold sectionAt
  split <;> exact word_lt _ _

theorem buildIdOf_ne_nil {bid : List UInt8} (found : buildIdOf file index = some bid) : bid ≠ [] := by
  unfold buildIdOf at found
  dsimp only at found
  split at found
  next note => exact firstBuildId_ne_nil note.2.2.2 found
  next => cases found

theorem textOf_eq_some {text : Nat × Nat} (found : textOf file index = some text) :
    text = ((sectionAt file index).shOffset, (sectionAt file index).shSize) := by
  unfold textOf at found
  dsimp only at found
  split at found
  next => exact (Option.some.inj found).symm
  next => cases found

/-- What the tool goes on with after a section without a build ID. -/
def toolNext (file : Buffer) (index : Nat) (text : Option (Nat × Nat)) : Option (Nat × Nat) := text.or (textOf file index)

theorem tool_noteBuildId (inside : nameOffset file index < file.length) :
    Tools.ElfBuildId.noteBuildId file (Tools.ElfBuildId.cStr file (nameOffset file index)) (sectionAt file index).shType
      (sectionAt file index).shOffset (sectionAt file index).shSize = .ok (buildIdOf file index) := by
  have named := @tool_cStr file (nameOffset file index) ".note.gnu.build-id".toList (by decide)
  unfold Tools.ElfBuildId.noteBuildId buildIdOf
  split
  next note =>
    rw [tool_parseBuildIdNote note.2.2]
    exact congrArg Except.ok (if_pos ⟨inside, note.1, named.mp note.2.1, note.2.2⟩).symm
  next other => exact congrArg Except.ok (if_neg fun note => other ⟨note.2.1, named.mpr note.2.2.1, note.2.2.2⟩).symm

theorem tool_text (inside : nameOffset file index < file.length) (text : Option (Nat × Nat)) :
    (if (sectionAt file index).shType = Tools.ElfBuildId.shtProgbits ∧
        Tools.ElfBuildId.cStr file (nameOffset file index) = ".text".toList ∧ text = none then
      some ((sectionAt file index).shOffset, (sectionAt file index).shSize)
    else text) = toolNext file index text := by
  have named := @tool_cStr file (nameOffset file index) ".text".toList (by decide)
  unfold toolNext textOf
  cases text with
  | some text => simp
  | none =>
    rw [Option.none_or]
    split
    next found => exact (if_pos ⟨inside, found.1, named.mp found.2.1⟩).symm
    next other => exact (if_neg fun found => other ⟨found.2.1, named.mpr found.2.2, rfl⟩).symm

theorem tool_visit (text : Option (Nat × Nat)) :
    Tools.ElfBuildId.visitSection file (strtab file) (sectionAt file index).shName (sectionAt file index).shType
      (sectionAt file index).shOffset (sectionAt file index).shSize text =
      .ok (match buildIdOf file index with
        | some bid => .found bid
        | none => .goOn (toolNext file index text)) := by
  unfold Tools.ElfBuildId.visitSection
  rw [← nameOffset]
  by_cases inside : nameOffset file index < file.length
  · rw [if_neg (by omega)]
    dsimp only
    rw [tool_noteBuildId inside, Python.ok_bind, tool_text inside]
    cases buildIdOf file index <;> rfl
  · have noId : buildIdOf file index = none := if_neg fun note => inside note.1
    have noText : textOf file index = none := if_neg fun text => inside text.1
    rw [if_pos (by omega), noId, toolNext, noText, Option.or_none]

/-- What the daemon goes on with. -/
def daemonNext (file : Buffer) (index : Nat) (text : Nat × Nat) : Nat × Nat :=
  if text.1 = 0 then (textOf file index).getD text else text

theorem daemon_noteBuildId (small : file.length < 2 ^ 63) (plain : Plain file bound index)
    (inside : nameOffset file index < file.length) :
    Daemon.ElfBuildId.noteBuildId (mapFile file) file.length (nameOffset file index) (sectionAt file index) =
      .ok ((buildIdOf file index).getD []) := by
  unfold Daemon.ElfBuildId.noteBuildId buildIdOf
  dsimp only
  by_cases kind : (sectionAt file index).shType = shtNote
  · rw [if_pos kind, ← noteName, daemon_nameEquals small (Nat.le_of_lt inside) (by decide)
      (plain.noteName inside kind), Memory.ok_bind]
    split
    next read =>
      have named := of_decide_eq_true read.1
      rcases plain.notes inside kind named read.2 with ⟨within, straight⟩ | ⟨beyond, short⟩
      · rw [if_pos ⟨inside, kind, named, within⟩, daemon_parseBuildIdNote small within straight]
      · rw [if_neg fun note => absurd note.2.2.2 (Nat.not_le_of_lt beyond), daemon_parseBuildIdNote_short short, Option.getD_none]
    next other =>
      rw [if_neg fun note => other ⟨decide_eq_true note.2.2.1, Nat.le_trans (sizeT_le _) note.2.2.2⟩, Option.getD_none]
  · rw [if_neg kind, if_neg fun note => kind note.2.1, Option.getD_none]

theorem daemon_isText (small : file.length < 2 ^ 63) (plain : Plain file bound index)
    (inside : nameOffset file index < file.length) {textOff : Nat}
    (state : textOff = 0 → ∀ seen ∈ textsBefore file index, seen.1 = 0) :
    Daemon.ElfBuildId.isText (mapFile file) (nameOffset file index) (sectionAt file index) textOff =
      .ok (decide (textOff = 0 ∧ (textOf file index).isSome)) := by
  unfold Daemon.ElfBuildId.isText textOf
  dsimp only
  split
  next read =>
    rw [← textName, daemon_nameEquals small (Nat.le_of_lt inside) (by decide)
      (plain.textName inside read.1 (state read.2))]
    by_cases named : nameAt file (nameOffset file index) = textName <;> simp [named, read, inside]
  next other =>
    by_cases none : textOff = 0
    · have kind : (sectionAt file index).shType ≠ shtProgbits := fun kind => other ⟨kind, none⟩
      simp [kind]
    · simp [none]

theorem daemon_visit (small : file.length < 2 ^ 63) (names : strtab file < file.length) (plain : Plain file bound index)
    {text : Nat × Nat}
    (state : text.1 = 0 → ∀ seen ∈ textsBefore file index, seen.1 = 0) :
    Daemon.ElfBuildId.visitSection (mapFile file) file.length (strtab file) (sectionAt file index) text.1 text.2 =
      .ok (match buildIdOf file index with
        | some bid => .found bid
        | none => .goOn (daemonNext file index text).1 (daemonNext file index text).2) := by
  have nameBound := shName_lt file index
  unfold Daemon.ElfBuildId.visitSection
  rw [sizeT_of_lt (by omega), ← nameOffset]
  by_cases inside : nameOffset file index < file.length
  · rw [if_neg (by omega)]
    dsimp only
    rw [daemon_noteBuildId small plain inside, Memory.ok_bind]
    cases found : buildIdOf file index with
    | some bid => rw [Option.getD_some, if_pos (buildIdOf_ne_nil found)]
    | none =>
      rw [Option.getD_none, if_neg (by simp), daemon_isText small plain inside state, Memory.ok_bind, daemonNext]
      cases seen : textOf file index with
      | none => simp
      | some place =>
        by_cases none : text.1 = 0
        · have same := textOf_eq_some seen
          simp [none, same]
        · simp [none]
  · have noId : buildIdOf file index = none := if_neg fun note => inside note.1
    have noText : textOf file index = none := if_neg fun text => inside text.1
    rw [if_pos (by omega), noId, daemonNext, noText]
    simp

end Sections

section Search
variable {file : Buffer} {bound index : Nat}

/-- The texts kept before a section. -/
def daemonText (file : Buffer) : (index : Nat) → Nat × Nat
  | 0 => (0, 0)
  | index + 1 => daemonNext file index (daemonText file index)

def toolText (file : Buffer) : (index : Nat) → Option (Nat × Nat)
  | 0 => none
  | index + 1 => toolNext file index (toolText file index)

theorem textsBefore_succ (file : Buffer) (index : Nat) :
    textsBefore file (index + 1) = textsBefore file index ++ (textOf file index).toList := by
  rw [textsBefore, List.range_succ, List.filterMap_append, ← textsBefore]
  cases found : textOf file index <;> simp [found]

theorem toolText_eq (file : Buffer) (index : Nat) : toolText file index = (textsBefore file index).head? := by
  induction index with
  | zero => rfl
  | succ index ih =>
    rw [toolText, toolNext, ih, textsBefore_succ, List.head?_append]
    cases textOf file index <;> rfl

/-- The daemon keeps the first text whose offset is not 0, if there is one. -/
theorem daemonText_eq (file : Buffer) (index : Nat) :
    (∃ chosen, (textsBefore file index).find? (·.1 ≠ 0) = some chosen ∧ daemonText file index = chosen) ∨
      (textsBefore file index).find? (·.1 ≠ 0) = none ∧ (daemonText file index).1 = 0 := by
  induction index with
  | zero => exact Or.inr ⟨rfl, rfl⟩
  | succ index ih =>
    rw [daemonText, textsBefore_succ, List.find?_append]
    rcases ih with ⟨chosen, found, kept⟩ | ⟨missing, zero⟩
    · left
      have positive : chosen.1 ≠ 0 := by simpa using List.find?_some found
      refine ⟨chosen, by rw [found, Option.some_or], ?_⟩
      rw [kept, daemonNext, if_neg positive]
    · rw [daemonNext, if_pos zero, missing, Option.none_or]
      cases textOf file index with
      | none => exact Or.inr ⟨rfl, zero⟩
      | some place =>
        by_cases start : place.1 = 0
        · right
          simp [start]
        · left
          simp [start]

theorem daemonText_state (none : (daemonText file index).1 = 0) : ∀ seen ∈ textsBefore file index, seen.1 = 0 := by
  rcases daemonText_eq file index with ⟨chosen, found, kept⟩ | ⟨missing, _⟩
  · have positive : chosen.1 ≠ 0 := by simpa using List.find?_some found
    rw [kept] at none
    exact absurd none positive
  · intro seen member
    simpa using List.find?_eq_none.mp missing seen member

/-- The build ID of the first section that has one, among so many from a section on. -/
def firstIdFrom (file : Buffer) (index remaining : Nat) : Option (List UInt8) :=
  (List.range' index remaining).findSome? (buildIdOf file)

def daemonFallback (file : Buffer) (text : Nat × Nat) : Checked (List UInt8) :=
  if text.1 = 0 ∨ text.2 = 0 ∨ file.length < sizeT (text.1 + text.2) then .ok []
  else Daemon.ElfBuildId.xorTextSection (mapFile file) text.1 text.2

def toolFallback (file : Buffer) : Option (Nat × Nat) → Option (List UInt8)
  | some (textOff, textSize) => if textSize = 0 then none else some (Tools.ElfBuildId.xorTextHash file textOff textSize)
  | none => none

/-- What the daemon's search comes to. -/
def daemonAnswer (file : Buffer) (index remaining : Nat) : Checked (List UInt8) :=
  match firstIdFrom file index remaining with
  | some bid => .ok bid
  | none => daemonFallback file (daemonText file (ehdrAt file).eShnum)

theorem Reached.next (reached : Reached file index) (none : buildIdOf file index = none) : Reached file (index + 1) := by
  intro earlier before
  rcases Nat.lt_succ_iff_lt_or_eq.mp before with sooner | rfl
  · exact reached earlier sooner
  · exact none

theorem firstIdFrom_succ (file : Buffer) (index remaining : Nat) :
    firstIdFrom file index (remaining + 1) = (buildIdOf file index).or (firstIdFrom file (index + 1) remaining) := by
  rw [firstIdFrom, List.range'_succ, List.findSome?_cons]
  cases buildIdOf file index <;> rfl

theorem daemon_search (small : file.length < 2 ^ 63) (names : strtab file < file.length) (plain : PlainTable file bound)
    (mapped : bound ≤ (mapFile file).length) {remaining : Nat} (rest : index + remaining = (ehdrAt file).eShnum)
    (reached : Reached file index) :
    Daemon.ElfBuildId.searchSections (mapFile file) file.length (ehdrAt file) (strtab file) remaining index
      (daemonText file index).1 (daemonText file index).2 = daemonAnswer file index remaining := by
  unfold daemonAnswer
  induction remaining generalizing index with
  | zero =>
    rw [← rest]
    rfl
  | succ remaining ih =>
    have here := plain index (by omega) reached
    rw [Daemon.ElfBuildId.searchSections, daemon_readShdr small (Nat.le_trans here.header mapped),
      Memory.ok_bind, daemon_visit small names here daemonText_state, Memory.ok_bind, firstIdFrom_succ]
    cases found : buildIdOf file index with
    | some bid => rfl
    | none => exact ih (by omega) (reached.next found)

theorem tool_search (headers : ∀ index < (ehdrAt file).eShnum, Reached file index → headerEnd file index ≤ file.length)
    {remaining : Nat} (rest : index + remaining = (ehdrAt file).eShnum) (reached : Reached file index) :
    Tools.ElfBuildId.searchSections file (ehdrAt file).eShoff (ehdrAt file).eShentsize (ehdrAt file).is64 (strtab file)
      remaining index (toolText file index) =
      .ok ((firstIdFrom file index remaining).or (toolFallback file (toolText file (ehdrAt file).eShnum))) := by
  induction remaining generalizing index with
  | zero =>
    rw [← rest, firstIdFrom, List.range'_zero, Nat.add_zero]
    rcases toolText file index with _ | ⟨textOff, textSize⟩ <;> rfl
  | succ remaining ih =>
    have before : index < (ehdrAt file).eShnum := by omega
    rw [Tools.ElfBuildId.searchSections, tool_readShdr (headers index before reached), Python.ok_bind]
    dsimp only
    rw [tool_visit, Python.ok_bind, firstIdFrom_succ]
    cases found : buildIdOf file index with
    | some bid => rfl
    | none => exact ih (by omega) (reached.next found)

end Search

section Entry
variable {file : Buffer}

def elfMagic : ByteString := 0x7F :: ascii "ELF"

/-- What the tool takes for an ELF file. -/
structure Recognised (file : Buffer) : Prop where
  magic : file.take 4 = elfMagic
  whole : (if (ehdrAt file).is64 then 64 else 52) ≤ file.length

instance : Decidable (Recognised file) :=
  decidable_of_iff (file.take 4 = elfMagic ∧ (if (ehdrAt file).is64 then 64 else 52) ≤ file.length)
    ⟨fun ⟨magic, whole⟩ => ⟨magic, whole⟩, fun ⟨magic, whole⟩ => ⟨magic, whole⟩⟩

def tableEnd (file : Buffer) : Nat := (ehdrAt file).eShoff + (ehdrAt file).eShnum * (ehdrAt file).eShentsize

theorem Recognised.large (valid : Recognised file) : 52 ≤ file.length := by
  have whole := valid.whole
  split at whole <;> omega

theorem tool_unrecognised (other : ¬ Recognised file) : Tools.ElfBuildId.computeElfBuildId file = .ok none := by
  unfold Tools.ElfBuildId.computeElfBuildId
  by_cases refused : file.length < 16 ∨ file.take 4 ≠ 0x7F :: ascii "ELF"
  · exact if_pos refused
  · rw [if_neg refused]
    have magic : file.take 4 = elfMagic := not_not.mp (not_or.mp refused).2
    have wide : decide (file[4]? = some Tools.ElfBuildId.elfClass64) = (ehdrAt file).is64 := (ehdrAt_is64 file).symm
    rw [wide]
    exact if_pos (Nat.lt_of_not_le fun whole => other ⟨magic, whole⟩)

/-- The tool's search, where the names have an offset. -/
def toolFrom (file : Buffer) : Option Nat → Python.Raises (Option (List UInt8))
  | none => .ok none
  | some shstrtabOff =>
    Tools.ElfBuildId.searchSections file (ehdrAt file).eShoff (ehdrAt file).eShentsize (ehdrAt file).is64 shstrtabOff
      (ehdrAt file).eShnum 0 none

theorem tool_recognised (valid : Recognised file) : Tools.ElfBuildId.computeElfBuildId file =
    if (ehdrAt file).eShoff = 0 ∨ (ehdrAt file).eShnum = 0 ∨ (ehdrAt file).eShstrndx = 0 then .ok none
    else if file.length < tableEnd file then .ok none
    else Tools.ElfBuildId.getShstrtabOffset file (ehdrAt file).eShoff (ehdrAt file).eShentsize (ehdrAt file).eShstrndx
      (ehdrAt file).is64 >>= toolFrom file := by
  have large := valid.large
  have whole := valid.whole
  have accepted : ¬ (file.length < 16 ∨ file.take 4 ≠ 0x7F :: ascii "ELF") :=
    not_or.mpr ⟨by omega, not_not.mpr valid.magic⟩
  unfold Tools.ElfBuildId.computeElfBuildId
  rw [if_neg accepted]
  have wide : decide (file[4]? = some Tools.ElfBuildId.elfClass64) = (ehdrAt file).is64 := (ehdrAt_is64 file).symm
  dsimp only
  rw [wide, if_neg (Nat.not_lt_of_le whole), tool_readEhdr whole, Python.ok_bind]
  rfl

theorem daemon_unrecognised (other : ¬ Recognised file) :
    Daemon.ElfBuildId.computeElfBuildId (mapFile file) file.length = .ok [] := by
  unfold Daemon.ElfBuildId.computeElfBuildId
  by_cases short : file.length < 64
  · exact if_pos short
  · have magic : file.take 4 ≠ elfMagic := by
      intro magic
      refine other ⟨magic, ?_⟩
      split <;> omega
    have bounds := mapFile_bounds file
    have bytes : slice (mapFile file) 0 4 = file.take 4 := slice_mapFile_inside (by omega)
    rw [if_neg short, load_inside (by omega), Memory.ok_bind, bytes]
    exact if_pos magic

/-- The daemon's search, where the names are in the file. -/
def daemonFrom (file : Buffer) (strtabShdr : SectionFields) : Checked (List UInt8) :=
  if file.length ≤ strtabShdr.shOffset then .ok []
  else Daemon.ElfBuildId.searchSections (mapFile file) file.length (ehdrAt file) strtabShdr.shOffset (ehdrAt file).eShnum 0 0 0

theorem daemon_recognised (small : file.length < 2 ^ 63) (valid : Recognised file) (large : 64 ≤ file.length) :
    Daemon.ElfBuildId.computeElfBuildId (mapFile file) file.length =
      if (ehdrAt file).eShoff = 0 ∨ (ehdrAt file).eShstrndx = 0 ∨ file.length < sizeT (tableEnd file) then .ok []
      else Daemon.ElfBuildId.readShdr (mapFile file) (ehdrAt file) (ehdrAt file).eShstrndx >>= daemonFrom file := by
  have bounds := mapFile_bounds file
  have bytes : slice (mapFile file) 0 4 = file.take 4 := slice_mapFile_inside (by omega)
  have magic : ¬ file.take 4 ≠ 0x7F :: ascii "ELF" := not_not.mpr valid.magic
  have inside : 4 < (mapFile file).length := by omega
  have elfClass : ((mapFile file)[4] = elfClass64) = (file[4]? = some elfClass64) := by
    have same : (mapFile file)[4]? = file[4]? := List.getElem?_append_left (by omega)
    rw [← same, List.getElem?_eq_getElem inside, Option.some.injEq]
  unfold Daemon.ElfBuildId.computeElfBuildId
  rw [if_neg (by omega), load_inside (by omega), Memory.ok_bind, bytes, if_neg magic, loadByte_inside inside, Memory.ok_bind]
  simp only [elfClass]
  rw [daemon_readEhdr small large, Memory.ok_bind]
  rfl

end Entry

/-- A file as the system has it; its size is an off_t. -/
structure FileContent where
  bytes : Buffer
  fits : bytes.length < 2 ^ 63

/-- Both give the build ID, or both give up. -/
def SameAnswer (file : FileContent) : Prop :=
  ∃ bid, Daemon.ElfBuildId.computeElfBuildId (mapFile file.bytes) file.bytes.length = .ok bid ∧
    Tools.ElfBuildId.computeElfBuildId file.bytes = .ok (if bid = [] then none else some bid)

/-- The section table and its names are where both programs can read them. -/
structure Located (file : Buffer) : Prop where
  large : 64 ≤ file.length
  table : tableEnd file ≤ file.length
  names : headerEnd file (ehdrAt file).eShstrndx ≤ file.length

/-- The section headers that are reached end inside the file, and none leads to a build ID or a text. -/
structure Fruitless (file : Buffer) : Prop where
  headers : ∀ index < (ehdrAt file).eShnum, headerEnd file index ≤ file.length
  noId : ∀ index < (ehdrAt file).eShnum, buildIdOf file index = none
  noText : ∀ first, (textsBefore file (ehdrAt file).eShnum).head? = some first → first.2 = 0

/-- The files that both programs take alike. -/
inductive Alike (file : Buffer) : Prop where
  | unrecognised (other : ¬ Recognised file)
  | noTable (absent : (ehdrAt file).eShoff = 0 ∨ (ehdrAt file).eShstrndx = 0)
  | tableOutside (beyond : file.length < sizeT (tableEnd file))
  | noSections (none : (ehdrAt file).eShnum = 0)
      (mapped : 64 ≤ file.length → headerEnd file (ehdrAt file).eShstrndx ≤ (mapFile file).length)
  | short (short : file.length < 64) (names : headerEnd file (ehdrAt file).eShstrndx ≤ file.length)
      (nothing : strtab file = 0 ∨ Fruitless file)
  | namesOutside (located : Located file) (outside : file.length ≤ strtab file)
      (headers : ∀ index < (ehdrAt file).eShnum, headerEnd file index ≤ file.length)
  | namesAtStart (located : Located file) (start : strtab file = 0) (plain : PlainTable file (mapFile file).length)
      (noId : ∀ index < (ehdrAt file).eShnum, buildIdOf file index = none)
      (noText : ∀ chosen, (textsBefore file (ehdrAt file).eShnum).find? (·.1 ≠ 0) = some chosen → GivesUp file chosen)
  | searched (located : Located file) (later : strtab file ≠ 0) (inside : strtab file < file.length) (plain : PlainTable file file.length)
      (texts : (∀ index < (ehdrAt file).eShnum, buildIdOf file index = none) →
        TextsAlike file (textsBefore file (ehdrAt file).eShnum))

section Agreement
variable {file : Buffer}

theorem columns_ne_nil (count off : Nat) : columns file count off ≠ [] := by
  intro empty
  have length := congrArg List.length empty
  simp [columns] at length

theorem firstIdFrom_eq_none {index remaining : Nat} (missing : ∀ later, index ≤ later → later < index + remaining →
    buildIdOf file later = none) : firstIdFrom file index remaining = none := by
  rw [firstIdFrom, List.findSome?_eq_none_iff]
  intro later member
  obtain ⟨after, before⟩ := List.mem_range'_1.mp member
  exact missing later after before

theorem of_firstIdFrom_eq_none {remaining : Nat} (none : firstIdFrom file 0 remaining = none) :
    ∀ index < remaining, buildIdOf file index = Option.none := by
  intro index before
  exact List.findSome?_eq_none_iff.mp none index (List.mem_range'_1.mpr ⟨Nat.zero_le index, by omega⟩)

theorem firstIdFrom_ne_nil {index remaining : Nat} {bid : List UInt8} (found : firstIdFrom file index remaining = some bid) : bid ≠ [] := by
  obtain ⟨section_index, _, same⟩ := List.exists_of_findSome?_eq_some found
  exact buildIdOf_ne_nil same

theorem daemonFallback_givesUp {text : Nat × Nat} (nothing : text.1 = 0 ∨ GivesUp file text) : daemonFallback file text = .ok [] :=
  if_pos nothing

theorem fallback_agree (small : file.length < 2 ^ 63) {index : Nat} (texts : TextsAlike file (textsBefore file index)) :
    ∃ bid, daemonFallback file (daemonText file index) = .ok bid ∧
      toolFallback file (toolText file index) = if bid = [] then none else some bid := by
  rw [toolText_eq]
  have kept := daemonText_eq file index
  cases seen : textsBefore file index with
  | nil =>
    rw [seen] at kept
    rcases kept with ⟨_, impossible, _⟩ | ⟨_, zero⟩
    · cases impossible
    · exact ⟨[], daemonFallback_givesUp (Or.inl zero), rfl⟩
  | cons first later =>
    rw [seen] at kept texts
    obtain ⟨textOff, textSize⟩ := first
    by_cases start : textOff = 0
    · rw [TextsAlike, if_pos start] at texts
      obtain ⟨empty, givesUp⟩ := texts
      refine ⟨[], daemonFallback_givesUp ?_, if_pos empty⟩
      rw [List.find?_cons_of_neg (by simpa using start)] at kept
      rcases kept with ⟨chosen, found, same⟩ | ⟨_, zero⟩
      · rw [same]
        exact Or.inr (givesUp chosen found)
      · exact Or.inl zero
    · rw [TextsAlike, if_neg start] at texts
      have same : daemonText file index = (textOff, textSize) := by
        rw [List.find?_cons_of_pos (by simpa using start)] at kept
        rcases kept with ⟨chosen, found, same⟩ | ⟨impossible, _⟩
        · rw [same, ← Option.some.inj found]
        · cases impossible
      rw [same]
      by_cases empty : textSize = 0
      · exact ⟨[], daemonFallback_givesUp (Or.inr (Or.inl empty)), if_pos empty⟩
      · obtain ⟨fits, mapped⟩ := texts.resolve_left empty
        refine ⟨_, (if_neg ?_).trans (xorTextSection_eq small mapped), ?_⟩
        · rintro (zero | none | beyond)
          · exact start zero
          · exact empty none
          · exact Nat.not_le_of_lt beyond fits
        · rw [if_neg (columns_ne_nil _ _), ← xorTextHash_eq]
          exact if_neg empty

theorem Fruitless.toolFallback_eq (fruitless : Fruitless file) :
    toolFallback file (toolText file (ehdrAt file).eShnum) = none := by
  have noText := fruitless.noText
  rw [toolText_eq]
  cases first : (textsBefore file (ehdrAt file).eShnum).head? with
  | none => rfl
  | some text => exact if_pos (noText text first)

theorem tool_getShstrtabOffset (names : headerEnd file (ehdrAt file).eShstrndx ≤ file.length) :
    Tools.ElfBuildId.getShstrtabOffset file (ehdrAt file).eShoff (ehdrAt file).eShentsize (ehdrAt file).eShstrndx (ehdrAt file).is64 =
      .ok (if strtab file ≠ 0 then some (strtab file) else none) := by
  rw [Tools.ElfBuildId.getShstrtabOffset, tool_readShdr names, Python.ok_bind]
  rfl

theorem tool_located (valid : Recognised file) (given : ¬ ((ehdrAt file).eShoff = 0 ∨ (ehdrAt file).eShnum = 0 ∨ (ehdrAt file).eShstrndx = 0))
    (table : tableEnd file ≤ file.length) (names : headerEnd file (ehdrAt file).eShstrndx ≤ file.length) :
    Tools.ElfBuildId.computeElfBuildId file = toolFrom file (if strtab file ≠ 0 then some (strtab file) else none) := by
  rw [tool_recognised valid, if_neg given, if_neg (Nat.not_lt_of_le table), tool_getShstrtabOffset names, Python.ok_bind]

theorem tool_located_searched (valid : Recognised file)
    (given : ¬ ((ehdrAt file).eShoff = 0 ∨ (ehdrAt file).eShnum = 0 ∨ (ehdrAt file).eShstrndx = 0))
    (table : tableEnd file ≤ file.length) (names : headerEnd file (ehdrAt file).eShstrndx ≤ file.length) (later : strtab file ≠ 0)
    (headers : ∀ index < (ehdrAt file).eShnum, Reached file index → headerEnd file index ≤ file.length) :
    Tools.ElfBuildId.computeElfBuildId file =
      .ok ((firstIdFrom file 0 (ehdrAt file).eShnum).or (toolFallback file (toolText file (ehdrAt file).eShnum))) := by
  rw [tool_located valid given table names, if_pos later, toolFrom]
  exact tool_search headers (Nat.zero_add _) fun earlier before => absurd before (Nat.not_lt_zero earlier)

theorem tool_fruitless (valid : Recognised file)
    (given : ¬ ((ehdrAt file).eShoff = 0 ∨ (ehdrAt file).eShnum = 0 ∨ (ehdrAt file).eShstrndx = 0))
    (table : tableEnd file ≤ file.length) (names : headerEnd file (ehdrAt file).eShstrndx ≤ file.length)
    (nothing : strtab file = 0 ∨ Fruitless file) : Tools.ElfBuildId.computeElfBuildId file = .ok none := by
  by_cases start : strtab file = 0
  · rw [tool_located valid given table names, if_neg (not_not.mpr start), toolFrom]
  · have fruitless := nothing.resolve_left start
    rw [tool_located_searched valid given table names start fun index before _ => fruitless.headers index before,
      firstIdFrom_eq_none fun index _ before => fruitless.noId index (by omega), fruitless.toolFallback_eq, Option.or_none]

theorem tool_absent (absent : ¬ Recognised file ∨ (ehdrAt file).eShoff = 0 ∨ (ehdrAt file).eShnum = 0 ∨ (ehdrAt file).eShstrndx = 0 ∨
    file.length < tableEnd file) : Tools.ElfBuildId.computeElfBuildId file = .ok none := by
  by_cases valid : Recognised file
  · rw [tool_recognised valid]
    have refused := absent.resolve_left (not_not.mpr valid)
    by_cases given : (ehdrAt file).eShoff = 0 ∨ (ehdrAt file).eShnum = 0 ∨ (ehdrAt file).eShstrndx = 0
    · exact if_pos given
    · rw [if_neg given]
      exact if_pos (by tauto)
  · exact tool_unrecognised valid

theorem daemon_absent (small : file.length < 2 ^ 63) (absent : ¬ Recognised file ∨ file.length < 64 ∨ (ehdrAt file).eShoff = 0 ∨
    (ehdrAt file).eShstrndx = 0 ∨ file.length < sizeT (tableEnd file)) :
    Daemon.ElfBuildId.computeElfBuildId (mapFile file) file.length = .ok [] := by
  by_cases valid : Recognised file
  · have refused := absent.resolve_left (not_not.mpr valid)
    by_cases short : file.length < 64
    · exact if_pos short
    · rw [daemon_recognised small valid (Nat.le_of_not_lt short)]
      exact if_pos (refused.resolve_left short)
  · exact daemon_unrecognised valid

theorem daemon_located (small : file.length < 2 ^ 63) (valid : Recognised file) (large : 64 ≤ file.length)
    (given : ¬ ((ehdrAt file).eShoff = 0 ∨ (ehdrAt file).eShstrndx = 0 ∨ file.length < sizeT (tableEnd file)))
    (names : headerEnd file (ehdrAt file).eShstrndx ≤ (mapFile file).length) :
    Daemon.ElfBuildId.computeElfBuildId (mapFile file) file.length =
      if file.length ≤ strtab file then .ok []
      else Daemon.ElfBuildId.searchSections (mapFile file) file.length (ehdrAt file) (strtab file) (ehdrAt file).eShnum 0 0 0 := by
  rw [daemon_recognised small valid large, if_neg given, daemon_readShdr small names, Memory.ok_bind]
  rfl

theorem daemon_searched (small : file.length < 2 ^ 63) (valid : Recognised file) (large : 64 ≤ file.length)
    (given : ¬ ((ehdrAt file).eShoff = 0 ∨ (ehdrAt file).eShstrndx = 0 ∨ file.length < sizeT (tableEnd file)))
    (names : headerEnd file (ehdrAt file).eShstrndx ≤ (mapFile file).length) (inside : strtab file < file.length) {bound : Nat}
    (plain : PlainTable file bound) (mapped : bound ≤ (mapFile file).length) :
    Daemon.ElfBuildId.computeElfBuildId (mapFile file) file.length = daemonAnswer file 0 (ehdrAt file).eShnum := by
  rw [daemon_located small valid large given names, if_neg (Nat.not_le_of_lt inside)]
  exact daemon_search small inside plain mapped (Nat.zero_add _) fun earlier before => absurd before (Nat.not_lt_zero earlier)

theorem fruitless_of_outside (outside : file.length ≤ strtab file)
    (headers : ∀ index < (ehdrAt file).eShnum, headerEnd file index ≤ file.length) : Fruitless file := by
  have nameless (index : Nat) : ¬ nameOffset file index < file.length := by
    unfold nameOffset
    omega
  refine ⟨headers, fun index _ => if_neg fun note => nameless index note.1, ?_⟩
  intro first found
  obtain ⟨index, _, text⟩ := List.mem_filterMap.mp (List.mem_of_mem_head? found)
  rw [textOf, if_neg fun text => nameless index text.1] at text
  cases text

/-- The tool looks at the number of sections first. -/
theorem tool_nothing (valid : Recognised file) (given : ¬ ((ehdrAt file).eShoff = 0 ∨ (ehdrAt file).eShstrndx = 0))
    (table : tableEnd file ≤ file.length) (names : headerEnd file (ehdrAt file).eShstrndx ≤ file.length)
    (nothing : strtab file = 0 ∨ Fruitless file) : Tools.ElfBuildId.computeElfBuildId file = .ok none := by
  by_cases none : (ehdrAt file).eShnum = 0
  · exact tool_absent (Or.inr (Or.inr (Or.inl none)))
  · exact tool_fruitless valid (by tauto) table names nothing

end Agreement

section Answers
variable {file : Buffer} (small : file.length < 2 ^ 63) (valid : Recognised file)
  (given : ¬ ((ehdrAt file).eShoff = 0 ∨ (ehdrAt file).eShstrndx = 0 ∨ file.length < sizeT (tableEnd file)))
include small valid given

theorem daemon_noSections (none : (ehdrAt file).eShnum = 0)
    (mapped : 64 ≤ file.length → headerEnd file (ehdrAt file).eShstrndx ≤ (mapFile file).length) :
    Daemon.ElfBuildId.computeElfBuildId (mapFile file) file.length = .ok [] := by
  by_cases short : file.length < 64
  · exact if_pos short
  · have large := Nat.le_of_not_lt short
    rw [daemon_located small valid large given (mapped large), none]
    split
    next => rfl
    next => exact if_pos (Or.inl rfl)

theorem daemon_namesAtStart (located : Located file) (start : strtab file = 0) (plain : PlainTable file (mapFile file).length)
    (noId : ∀ index < (ehdrAt file).eShnum, buildIdOf file index = none)
    (noText : ∀ chosen, (textsBefore file (ehdrAt file).eShnum).find? (·.1 ≠ 0) = some chosen → GivesUp file chosen) :
    Daemon.ElfBuildId.computeElfBuildId (mapFile file) file.length = .ok [] := by
  have bounds := mapFile_bounds file
  have names := located.names
  have large := located.large
  rw [daemon_searched small valid located.large given (by omega) (by omega) plain (Nat.le_refl _), daemonAnswer,
    firstIdFrom_eq_none fun index _ before => noId index (by omega)]
  rcases daemonText_eq file (ehdrAt file).eShnum with ⟨chosen, found, kept⟩ | ⟨_, zero⟩
  · rw [kept]
    exact daemonFallback_givesUp (Or.inr (noText chosen found))
  · exact daemonFallback_givesUp (Or.inl zero)

theorem searched_same (located : Located file) (later : strtab file ≠ 0) (inside : strtab file < file.length)
    (plain : PlainTable file file.length) (texts : (∀ index < (ehdrAt file).eShnum, buildIdOf file index = none) →
      TextsAlike file (textsBefore file (ehdrAt file).eShnum)) : SameAnswer ⟨file, small⟩ := by
  have bounds := mapFile_bounds file
  have names := located.names
  have daemon := daemon_searched small valid located.large given (by omega) inside plain bounds.1
  unfold daemonAnswer at daemon
  by_cases none : (ehdrAt file).eShnum = 0
  · rw [none] at daemon
    exact ⟨[], daemon.trans (if_pos (Or.inl rfl)), tool_absent (Or.inr (Or.inr (Or.inl none)))⟩
  · have tool := tool_located_searched valid (by tauto) located.table names later fun index before reached => (plain index before reached).header
    cases found : firstIdFrom file 0 (ehdrAt file).eShnum with
    | some bid =>
      rw [found] at daemon tool
      exact ⟨bid, daemon, by rw [if_neg (firstIdFrom_ne_nil found)]; exact tool⟩
    | none =>
      rw [found] at daemon tool
      obtain ⟨bid, fallback, same⟩ := fallback_agree small (texts (of_firstIdFrom_eq_none found))
      exact ⟨bid, daemon.trans fallback, by rw [← same]; exact tool⟩

end Answers

/-- The build IDs of the daemon and the tools are the same for the files that both take alike. -/
theorem same_answer_of_alike (file : FileContent) (alike : Alike file.bytes) : SameAnswer file := by
  obtain ⟨file, small⟩ := file
  have bounds := mapFile_bounds file
  have nothing (daemon : Daemon.ElfBuildId.computeElfBuildId (mapFile file) file.length = .ok [])
      (tool : Tools.ElfBuildId.computeElfBuildId file = .ok none) : SameAnswer ⟨file, small⟩ := ⟨[], daemon, tool⟩
  by_cases valid : Recognised file
  · by_cases refused : (ehdrAt file).eShoff = 0 ∨ (ehdrAt file).eShstrndx = 0 ∨ file.length < sizeT (tableEnd file)
    · have exceeded := sizeT_le (tableEnd file)
      refine nothing (daemon_absent small (Or.inr (Or.inr refused))) (tool_absent (Or.inr ?_))
      rcases refused with shoff | strndx | beyond
      · exact Or.inl shoff
      · exact Or.inr (Or.inr (Or.inl strndx))
      · exact Or.inr (Or.inr (Or.inr (by omega)))
    · cases alike with
      | unrecognised other => exact absurd valid other
      | noTable absent => exact absurd absent (by tauto)
      | tableOutside beyond => exact absurd beyond (by tauto)
      | noSections none mapped =>
        exact nothing (daemon_noSections small valid refused none mapped) (tool_absent (Or.inr (Or.inr (Or.inl none))))
      | short short names fruitless =>
        refine nothing (if_pos short) ?_
        by_cases table : tableEnd file ≤ file.length
        · exact tool_nothing valid (by tauto) table names fruitless
        · exact tool_absent (Or.inr (Or.inr (Or.inr (Or.inr (Nat.lt_of_not_le table)))))
      | namesOutside located outside headers =>
        have names : headerEnd file (ehdrAt file).eShstrndx ≤ file.length := located.names
        refine nothing ?_ (tool_nothing valid (by tauto) located.table names (Or.inr (fruitless_of_outside outside headers)))
        rw [daemon_located small valid located.large refused (by omega), if_pos outside]
      | namesAtStart located start plain noId noText =>
        exact nothing (daemon_namesAtStart small valid refused located start plain noId noText)
          (tool_nothing valid (by tauto) located.table located.names (Or.inl start))
      | searched located later inside plain texts => exact searched_same small valid refused located later inside plain texts
  · exact nothing (daemon_unrecognised valid) (tool_unrecognised valid)

end Crashomon.Proofs.ElfAgreement
