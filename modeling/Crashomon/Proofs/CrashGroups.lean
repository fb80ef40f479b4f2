import Crashomon.Proofs.ReportSignature

/-! Which crashes share a hashed string. Process, signal and frames are joined by
characters that may occur inside them, and a frame keeps its whole module path. -/

namespace Crashomon.Proofs.CrashGroups
open Python Regex Web.Models

/-- A frame line as the pattern of compute_signature reads it, the offset in lower case. -/
structure Frame where
  module : Text
  offset : Text
  deriving DecidableEq, Repr

def Frame.text (frame : Frame) : Text := frame.module ++ '+' :: frame.offset

def frameOf (line : Text) : Option Frame :=
  (framePattern.search line).map fun groups => ⟨groups.getD 0 [], (groups.getD 1 []).map Char.toLower⟩

/-- The first three frames of a report. -/
def topFrames (report : Text) : List Frame := ((splitlines report).filterMap frameOf).take 3

def frameText (frames : List Frame) : Text := join ",".toList (frames.map Frame.text)

/-- The string that is hashed. -/
def hashed (crash : Crash) : Text := payload crash.process crash.signal (signatureFrames crash.report)

/-- What is behind the last slash. -/
def basename (path : Text) : Text := (path.reverse.takeWhile (· ≠ '/')).reverse

/-- The same crash as the docstring of compute_signature has it. -/
structure Same (first second : Crash) : Prop where
  process : first.process = second.process
  signal : first.signal = second.signal
  frames : (topFrames first.report).map (fun frame => (basename frame.module, frame.offset)) =
    (topFrames second.report).map fun frame => (basename frame.module, frame.offset)

/-- What insert_crash writes into the row. -/
def Signed (sha256 : ByteArray → Vector UInt8 32) (crash : Crash) : Prop :=
  crash.signature = computeSignature sha256 crash.process crash.signal crash.report

def truncatedHash (sha256 : ByteArray → Vector UInt8 32) (text : Text) : Text :=
  (hexdigest (sha256 (String.ofList text).toUTF8)).take 16

/-- The hashed strings tell the two crashes apart exactly when they are not the same, and so do
the groups where the truncated hash does not collide on them. -/
structure Grouped (first second : Crash) : Prop where
  hashed : hashed first = hashed second ↔ Same first second
  together : ∀ (sha256 : ByteArray → Vector UInt8 32) (rows : List Crash), first ∈ rows → second ∈ rows →
    Signed sha256 first → Signed sha256 second →
    (truncatedHash sha256 (CrashGroups.hashed first) = truncatedHash sha256 (CrashGroups.hashed second) →
      CrashGroups.hashed first = CrashGroups.hashed second) →
    ((∃ group ∈ crashGroups rows, first ∈ group ∧ second ∈ group) ↔ Same first second)

/-- A module of the second list goes on where a frame of the first ends, over its comma, and what
follows is spelled alike. -/
def FramesSpill (first second : List Frame) : Prop :=
  ∃ shared short rest more offset others, first = shared ++ short :: rest ∧
    second = shared ++ ⟨short.text ++ ',' :: more, offset⟩ :: others ∧ frameText rest = frameText (⟨more, offset⟩ :: others)

/-- The first field in which the second crash differs goes on where that field of the first one ends,
over the character behind it, and what follows is spelled alike. -/
inductive Spills (first second : Crash) : Prop where
  | process (more : Text) (longer : second.process = first.process ++ ':' :: more)
    (alike : first.signal ++ ':' :: frameText (topFrames first.report) =
      more ++ ':' :: (second.signal ++ ':' :: frameText (topFrames second.report)))
  | signal (more : Text) (process : first.process = second.process) (longer : second.signal = first.signal ++ ':' :: more)
    (alike : frameText (topFrames first.report) = more ++ ':' :: frameText (topFrames second.report))
  | frames (process : first.process = second.process) (signal : first.signal = second.signal)
    (alike : FramesSpill (topFrames first.report) (topFrames second.report))

def Spilled (first second : Crash) : Prop := Spills first second ∨ Spills second first

/-- Only the same crash spills, and the same crash has its modules in the same directories. -/
structure Unmixed (first second : Crash) : Prop where
  spilled : Spilled first second → Same first second
  whole : Same first second → ¬ Spilled first second → topFrames first.report = topFrames second.report

section Frames

theorem readFrame_eq (line : Text) : readFrame line = (frameOf line).map Frame.text := by
  unfold readFrame frameOf
  rw [Option.map_map]
  congr 1
  funext groups
  simp [Frame.text]

theorem signatureFrames_eq (report : Text) : signatureFrames report = (topFrames report).map Frame.text := by
  rw [signatureFrames, ReportSignature.collectFrames_eq _ (by decide), List.nil_append, topFrames, List.map_take, List.map_filterMap]
  congr 2
  funext line
  exact readFrame_eq line

theorem hexDigit_plain {character : Char} (digit : isHexDigit character = true) :
    character.toLower ≠ ',' ∧ character.toLower ≠ '+' := by
  have each : ∀ value : Fin 128, isHexDigit (Char.ofNat value) = true →
      (Char.ofNat value).toLower ≠ ',' ∧ (Char.ofNat value).toLower ≠ '+' := by decide +kernel
  have small : character.toNat < 128 := by
    simp only [isHexDigit, Bool.or_eq_true, Bool.and_eq_true, decide_eq_true_eq, Char.le_def, UInt32.le_iff_toNat_le] at digit
    change character.val.toNat < 128
    rcases digit with (⟨_, most⟩ | ⟨_, most⟩) | ⟨_, most⟩ <;> exact Nat.lt_of_le_of_lt most (by decide)
  have same := Char.ofNat_toNat character
  rw [← same] at digit ⊢
  exact each ⟨character.toNat, small⟩ digit

/-- A part that takes no group leaves the groups to what follows. -/
theorem reads_behind {first later : Pattern} {text : Text} {groups : List Text}
    (silent : ∀ front taken, first.Reads front taken → taken = []) (reads : (Pattern.seq first later).Reads text groups) :
    ∃ back, later.Reads back groups := by
  obtain ⟨front, back, taken, others, _, same, begun, reads⟩ := reads
  rw [silent front taken begun, List.nil_append] at same
  exact ⟨back, same ▸ reads⟩

theorem silent_many {accepts : Char → Bool} {least : Nat} (front : Text) (taken : List Text)
    (reads : (Pattern.many accepts least).Reads front taken) : taken = [] := reads.2

theorem silent_one {accepts : Char → Bool} (front : Text) (taken : List Text)
    (reads : (Pattern.one accepts).Reads front taken) : taken = [] := reads.2

theorem reads_group {accepts : Char → Bool} {least : Nat} {later : Pattern} {text : Text} {groups : List Text}
    (reads : (Pattern.seq (.group (.many accepts least)) later).Reads text groups) :
    ∃ front back others, groups = front :: others ∧ later.Reads back others := by
  obtain ⟨front, back, taken, others, _, same, ⟨inner, begun, _, none⟩, reads⟩ := reads
  exact ⟨front, back, others, by simp [same, begun, none], reads⟩

theorem groups_of_search {line : Text} {groups : List Text} (found : framePattern.search line = some groups) :
    ∃ module run : Text, groups = [module, '0' :: 'x' :: run] ∧ ∀ character ∈ run, isHexDigit character = true := by
  obtain ⟨position, last, reached, same⟩ := Pattern.search_reaches found
  obtain ⟨begun, atStart, later⟩ := Pattern.mem_seq.mp reached
  have fresh : begun.groups = [] := by
    simp only [Pattern.successes] at atStart
    split at atStart
    · rw [List.mem_singleton.mp atStart]
    · cases atStart
  obtain ⟨text, taken, reads, _, _, all⟩ := Pattern.reads_of_mem (by simp [Pattern.Floating]) later
  obtain ⟨_, behindBlanks⟩ := reads_behind silent_many reads
  obtain ⟨_, behindIndex⟩ := reads_behind silent_many behindBlanks
  obtain ⟨_, atModule⟩ := reads_behind silent_many behindIndex
  obtain ⟨module, _, others, shape, behindModule⟩ := reads_group atModule
  obtain ⟨_, atPlus⟩ := reads_behind silent_many behindModule
  obtain ⟨_, behindPlus⟩ := reads_behind silent_one atPlus
  obtain ⟨offset, inner, tail, atOffset⟩ := reads_behind silent_many behindPlus
  obtain ⟨_, _, _, _, here, nothing, ⟨⟨zero, isZero, rfl⟩, rfl⟩, behindZero⟩ := atOffset
  obtain ⟨_, run, _, _, rfl, rfl, ⟨⟨ex, isEx, rfl⟩, rfl⟩, ⟨_, digits⟩, rfl⟩ := behindZero
  refine ⟨module, run, ?_, digits⟩
  rw [← same, all, fresh, shape, tail, nothing, here, of_decide_eq_true isZero, of_decide_eq_true isEx]
  rfl

theorem offset_plain {line : Text} {frame : Frame} (read : frameOf line = some frame) :
    ',' ∉ frame.offset ∧ '+' ∉ frame.offset := by
  obtain ⟨groups, found, rfl⟩ := Option.map_eq_some_iff.mp read
  obtain ⟨module, run, rfl, digits⟩ := groups_of_search found
  have plain : ∀ character ∈ ('0' :: 'x' :: run).map Char.toLower, character ≠ ',' ∧ character ≠ '+' := by
    intro character member
    obtain ⟨upper, inside, rfl⟩ := List.mem_map.mp member
    rcases List.mem_cons.mp inside with rfl | inside
    · decide
    rcases List.mem_cons.mp inside with rfl | inside
    · decide
    exact hexDigit_plain (digits upper inside)
  exact ⟨fun comma => (plain ',' comma).1 rfl, fun plus => (plain '+' plus).2 rfl⟩

theorem topFrames_plain {report : Text} {frame : Frame} (member : frame ∈ topFrames report) :
    ',' ∉ frame.offset ∧ '+' ∉ frame.offset := by
  obtain ⟨line, _, read⟩ := List.mem_filterMap.mp (List.mem_of_mem_take member)
  exact offset_plain read

end Frames

section Spelling

/-- What follows a frame. -/
def tailText : List Frame → Text
  | [] => []
  | frame :: rest => ',' :: frameText (frame :: rest)

@[simp] theorem frameText_single (frame : Frame) : frameText [frame] = frame.text := by
  simp [frameText, join]

@[simp] theorem frameText_cons (frame next : Frame) (rest : List Frame) :
    frameText (frame :: next :: rest) = frame.text ++ ',' :: frameText (next :: rest) := by
  simp [frameText, join, List.intercalate_cons_cons]

theorem frameText_split (frame : Frame) (rest : List Frame) :
    frameText (frame :: rest) = frame.module ++ '+' :: (frame.offset ++ tailText rest) := by
  cases rest with
  | nil => simp [tailText, Frame.text]
  | cons next rest => simp [tailText, Frame.text]

theorem payload_eq (process signal : Text) (frames : List Frame) :
    payload process signal (frames.map Frame.text) = process ++ ':' :: (signal ++ ':' :: frameText frames) := by
  simp [payload, frameText]

theorem frameText_nonempty (frame : Frame) (rest : List Frame) : frameText (frame :: rest) ≠ [] := by
  rw [frameText_split]
  simp

theorem tailText_inj {first second : List Frame} (same : tailText first = tailText second) :
    frameText first = frameText second := by
  cases first <;> cases second <;> simp_all [tailText]

theorem tailText_append {rest : List Frame} {front back : Text} {mark : Char} (other : mark ≠ ',')
    (same : tailText rest = front ++ mark :: back) : ∃ more, front = ',' :: more ∧ frameText rest = more ++ mark :: back := by
  cases rest with
  | nil => simp [tailText] at same
  | cons frame rest =>
    cases front with
    | nil =>
      cases same
      exact absurd rfl other
    | cons head more =>
      obtain ⟨rfl, behind⟩ := List.cons.inj same
      exact ⟨more, rfl, behind⟩

/-- An offset ends at the next comma. -/
theorem offset_split {first second : Text} {rest others : List Frame} (plain : ',' ∉ first) (clean : ',' ∉ second)
    (same : first ++ tailText rest = second ++ tailText others) : first = second ∧ tailText rest = tailText others := by
  cases rest with
  | nil =>
    cases others with
    | nil => simpa [tailText] using same
    | cons other others =>
      rw [tailText, List.append_nil] at same
      rw [same, tailText] at plain
      exact absurd (List.mem_append_right second List.mem_cons_self) plain
  | cons frame rest =>
    cases others with
    | nil =>
      simp only [tailText, List.append_nil] at same
      rw [← same] at clean
      exact absurd (List.mem_append_right first List.mem_cons_self) clean
    | cons other others =>
      obtain ⟨left, right⟩ := split_at_first plain clean same
      exact ⟨left, congrArg (',' :: ·) right⟩

/-- A module that goes on behind the plus of a frame goes on behind the comma of that frame. -/
theorem offset_over {offset more back : Text} {rest : List Frame} (plain : '+' ∉ offset)
    (same : offset ++ tailText rest = more ++ '+' :: back) :
    ∃ later, more = offset ++ ',' :: later ∧ frameText rest = later ++ '+' :: back := by
  rcases List.append_eq_append_iff.mp same with ⟨front, longer, tail⟩ | ⟨behind, longer, tail⟩
  · obtain ⟨later, rfl, text⟩ := tailText_append (by decide) tail
    exact ⟨later, longer, text⟩
  · cases behind with
    | nil =>
      have begun : tailText rest = [] ++ '+' :: back := tail.symm
      obtain ⟨_, empty, _⟩ := tailText_append (by decide) begun
      cases empty
    | cons head behind =>
      obtain ⟨rfl, _⟩ := List.cons.inj tail
      rw [longer] at plain
      exact absurd (List.mem_append_right more List.mem_cons_self) plain

def Plain (frames : List Frame) : Prop := ∀ frame ∈ frames, ',' ∉ frame.offset ∧ '+' ∉ frame.offset

/-- The first frames of two lists that are spelled alike: equal, or one module goes on over the other frame. -/
theorem heads_cases {first second : Frame} {rest others : List Frame} (plain : Plain (first :: rest))
    (clean : Plain (second :: others)) (same : frameText (first :: rest) = frameText (second :: others)) :
    (first = second ∧ frameText rest = frameText others) ∨
      (∃ more, second.module = first.text ++ ',' :: more ∧ frameText rest = frameText (⟨more, second.offset⟩ :: others)) ∨
      ∃ more, first.module = second.text ++ ',' :: more ∧ frameText others = frameText (⟨more, first.offset⟩ :: rest) := by
  obtain ⟨noComma, noPlus⟩ := plain first List.mem_cons_self
  obtain ⟨noComma', noPlus'⟩ := clean second List.mem_cons_self
  rw [frameText_split, frameText_split] at same
  rcases split_cases same with ⟨modules, tails⟩ | ⟨more, longer, tails⟩ | ⟨more, longer, tails⟩
  · obtain ⟨offsets, behind⟩ := offset_split noComma noComma' tails
    left
    refine ⟨?_, tailText_inj behind⟩
    cases first
    cases second
    simp_all
  · obtain ⟨later, rfl, text⟩ := offset_over noPlus tails
    right
    left
    refine ⟨later, by simp [longer, Frame.text], ?_⟩
    rw [text, frameText_split]
  · obtain ⟨later, rfl, text⟩ := offset_over noPlus' tails
    right
    right
    refine ⟨later, by simp [longer, Frame.text], ?_⟩
    rw [text, frameText_split]

theorem FramesSpill.cons {first second : List Frame} (frame : Frame) (spill : FramesSpill first second) :
    FramesSpill (frame :: first) (frame :: second) := by
  obtain ⟨shared, short, rest, more, offset, others, rfl, rfl, alike⟩ := spill
  exact ⟨frame :: shared, short, rest, more, offset, others, rfl, rfl, alike⟩

theorem spill_head {first second : Frame} {rest others : List Frame} {more : Text}
    (longer : second.module = first.text ++ ',' :: more)
    (alike : frameText rest = frameText (⟨more, second.offset⟩ :: others)) :
    FramesSpill (first :: rest) (second :: others) := by
  refine ⟨[], first, rest, more, second.offset, others, rfl, ?_, alike⟩
  rw [← longer]
  rfl

theorem frameText_append {shared first second : List Frame} (frame other : Frame)
    (same : frameText (frame :: first) = frameText (other :: second)) :
    frameText (shared ++ frame :: first) = frameText (shared ++ other :: second) := by
  induction shared with
  | nil => exact same
  | cons head shared ih => cases shared <;> simp_all

theorem FramesSpill.text {first second : List Frame} (spill : FramesSpill first second) :
    frameText first = frameText second := by
  obtain ⟨shared, short, rest, more, offset, others, rfl, rfl, alike⟩ := spill
  apply frameText_append
  cases rest with
  | nil => exact absurd alike.symm (frameText_nonempty _ _)
  | cons next rest =>
    rw [frameText_cons, alike, frameText_split, frameText_split]
    simp

theorem frameText_eq_iff {first second : List Frame} (plain : Plain first) (clean : Plain second) :
    frameText first = frameText second ↔ first = second ∨ FramesSpill first second ∨ FramesSpill second first := by
  constructor
  · intro same
    induction first generalizing second with
    | nil =>
      cases second with
      | nil => exact Or.inl rfl
      | cons frame rest => exact absurd same.symm (frameText_nonempty frame rest)
    | cons frame rest ih =>
      cases second with
      | nil => exact absurd same (frameText_nonempty frame rest)
      | cons other others =>
        obtain ⟨rfl, behind⟩ | ⟨more, longer, alike⟩ | ⟨more, longer, alike⟩ := heads_cases plain clean same
        · obtain rfl | spill | spill :=
            ih (List.forall_mem_cons.mp plain).2 (List.forall_mem_cons.mp clean).2 behind
          · exact Or.inl rfl
          · exact Or.inr (Or.inl (spill.cons frame))
          · exact Or.inr (Or.inr (spill.cons frame))
        · exact Or.inr (Or.inl (spill_head longer alike))
        · exact Or.inr (Or.inr (spill_head longer alike))
  · rintro (rfl | spill | spill)
    · rfl
    · exact spill.text
    · exact spill.text.symm

theorem hashed_eq (crash : Crash) : hashed crash =
    crash.process ++ ':' :: (crash.signal ++ ':' :: frameText (topFrames crash.report)) := by
  rw [hashed, signatureFrames_eq, payload_eq]

theorem Spills.hashed {first second : Crash} (spills : Spills first second) : hashed first = hashed second := by
  rw [hashed_eq, hashed_eq]
  cases spills with
  | process more longer alike => simp [longer, alike]
  | signal more process longer alike => simp [process, longer, alike]
  | frames process signal alike => rw [process, signal, alike.text]

/-- Two hashed strings are equal where nothing differs or where a field spills. -/
theorem hashed_eq_iff (first second : Crash) : hashed first = hashed second ↔
    (first.process = second.process ∧ first.signal = second.signal ∧ topFrames first.report = topFrames second.report) ∨
      Spilled first second := by
  constructor
  · intro same
    rw [hashed_eq, hashed_eq] at same
    rcases split_cases same with ⟨process, rest⟩ | ⟨more, longer, rest⟩ | ⟨more, longer, rest⟩
    · rcases split_cases rest with ⟨signal, text⟩ | ⟨more, longer, text⟩ | ⟨more, longer, text⟩
      · obtain frames | spill | spill := (frameText_eq_iff (fun _ => topFrames_plain) (fun _ => topFrames_plain)).mp text
        · exact Or.inl ⟨process, signal, frames⟩
        · exact Or.inr (Or.inl (.frames process signal spill))
        · exact Or.inr (Or.inr (.frames process.symm signal.symm spill))
      · exact Or.inr (Or.inl (.signal more process longer text))
      · exact Or.inr (Or.inr (.signal more process.symm longer text))
    · exact Or.inr (Or.inl (.process more longer rest))
    · exact Or.inr (Or.inr (.process more longer rest))
  · rintro (⟨process, signal, frames⟩ | spills | spills)
    · rw [hashed_eq, hashed_eq, process, signal, frames]
    · exact spills.hashed
    · exact spills.hashed.symm

end Spelling

section Groups

theorem signature_eq (sha256 : ByteArray → Vector UInt8 32) {crash : Crash} (signed : Signed sha256 crash)
    (found : topFrames crash.report ≠ []) :
    crash.signature = truncatedHash sha256 (hashed crash) ∧ crash.signature ≠ [] := by
  have frames : signatureFrames crash.report ≠ [] := by
    rw [signatureFrames_eq]
    simpa using found
  refine ⟨?_, ?_⟩
  · rw [signed, computeSignature]
    simp [frames, truncatedHash, hashed]
  · rw [signed]
    exact (ReportSignature.signed_iff ..).mpr frames

/-- GROUP BY puts two signed rows together where their signatures are equal. -/
theorem together_iff {rows : List Crash} {first second : Crash} (member : first ∈ rows) (other : second ∈ rows)
    (signed : first.signature ≠ []) (otherSigned : second.signature ≠ []) :
    (∃ group ∈ crashGroups rows, first ∈ group ∧ second ∈ group) ↔ first.signature = second.signature := by
  simp only [crashGroups, List.mem_map, List.mem_eraseDups]
  constructor
  · rintro ⟨_, ⟨signature, _, rfl⟩, inside, within⟩
    have left := (List.mem_filter.mp inside).2
    have right := (List.mem_filter.mp within).2
    rw [decide_eq_true_eq] at left right
    exact left.trans right.symm
  · intro same
    have kept : first ∈ rows.filter fun crash => decide (crash.signature ≠ []) := by simp [member, signed]
    have alsoKept : second ∈ rows.filter fun crash => decide (crash.signature ≠ []) := by simp [other, otherSigned]
    refine ⟨_, ⟨first.signature, ⟨first, kept, rfl⟩, rfl⟩, ?_, ?_⟩
    · exact List.mem_filter.mpr ⟨kept, by simp⟩
    · exact List.mem_filter.mpr ⟨alsoKept, by simp [same]⟩

end Groups

/-- Two crashes with frames are grouped as the docstring says exactly where their fields do not spill
over the separators and equal basenames stand for equal modules. -/
theorem grouped_iff_unmixed {first second : Crash} (found : topFrames first.report ≠ [])
    (otherFound : topFrames second.report ≠ []) : Grouped first second ↔ Unmixed first second := by
  have apart : (hashed first = hashed second ↔ Same first second) ↔ Unmixed first second := by
    rw [hashed_eq_iff]
    constructor
    · intro told
      refine ⟨fun spilled => told.mp (Or.inr spilled), ?_⟩
      intro same unspilled
      obtain ⟨_, _, frames⟩ | spilled := told.mpr same
      · exact frames
      · exact absurd spilled unspilled
    · rintro ⟨spilled, whole⟩
      constructor
      · rintro (⟨process, signal, frames⟩ | spills)
        · exact ⟨process, signal, by rw [frames]⟩
        · exact spilled spills
      · intro same
        by_cases spills : Spilled first second
        · exact Or.inr spills
        · exact Or.inl ⟨same.process, same.signal, whole same spills⟩
  refine ⟨fun grouped => apart.mp grouped.hashed, fun unmixed => ⟨apart.mpr unmixed, ?_⟩⟩
  intro sha256 rows member other signed otherSigned injective
  obtain ⟨hash, nonempty⟩ := signature_eq sha256 signed found
  obtain ⟨otherHash, otherNonempty⟩ := signature_eq sha256 otherSigned otherFound
  rw [together_iff member other nonempty otherNonempty, hash, otherHash, ← apart.mpr unmixed]
  exact ⟨injective, congrArg (truncatedHash sha256)⟩

/-- No field contains the character behind it, and no module a comma. -/
structure Separable (crash : Crash) : Prop where
  process : ':' ∉ crash.process
  signal : ':' ∉ crash.signal
  modules : ∀ frame ∈ topFrames crash.report, ',' ∉ frame.module

theorem Separable.unspilled {first second : Crash} (separable : Separable second) : ¬ Spills first second := by
  intro spills
  cases spills with
  | process more longer =>
    apply separable.process
    simp [longer]
  | signal more _ longer =>
    apply separable.signal
    simp [longer]
  | frames _ _ alike =>
    obtain ⟨shared, short, _, more, offset, others, _, same, _⟩ := alike
    have member : ⟨short.text ++ ',' :: more, offset⟩ ∈ topFrames second.report := by simp [same]
    exact separable.modules _ member (by simp)

/-- Among separable crashes only the directories of the modules matter. -/
theorem separable_unmixed {first second : Crash} (separable : Separable first) (otherSeparable : Separable second)
    (whole : Same first second → topFrames first.report = topFrames second.report) : Unmixed first second := by
  have unspilled : ¬ Spilled first second := by
    rintro (spills | spills)
    · exact otherSeparable.unspilled spills
    · exact separable.unspilled spills
  exact ⟨fun spilled => absurd spilled unspilled, fun same _ => whole same⟩

/-- A row with these fields. -/
def crashOf (process signal report : String) : Crash where
  id := 0
  ts := []
  process := process.toList
  signal := signal.toList
  pid := 0
  report := report.toList
  dmpPath := []
  signature := []

def reportOfLiba : String := " 0  /usr/bin/svc + 0x1234\n 1  /usr/lib/liba.so + 0xabcd\n"

theorem processes_told_apart :
    Grouped (crashOf "svc_a" "SIGSEGV" reportOfLiba) (crashOf "svc_b" "SIGSEGV" reportOfLiba) := by
  have frames : topFrames reportOfLiba.toList =
      [⟨"/usr/bin/svc".toList, "0x1234".toList⟩, ⟨"/usr/lib/liba.so".toList, "0xabcd".toList⟩] := by decide +kernel
  have separable : ∀ process : String, ':' ∉ process.toList → Separable (crashOf process "SIGSEGV" reportOfLiba) := by
    intro process clean
    have signal : ':' ∉ "SIGSEGV".toList := by decide
    refine ⟨clean, signal, ?_⟩
    simp only [crashOf, frames]
    decide
  refine (grouped_iff_unmixed ?_ ?_).mpr (separable_unmixed (separable _ (by decide)) (separable _ (by decide)) fun _ => rfl)
  · simp [crashOf, frames]
  · simp [crashOf, frames]

/-- A colon in the process name passes for the one behind it. -/
theorem colons_mix :
    ¬ ∀ first second : Crash, topFrames first.report ≠ [] → topFrames second.report ≠ [] → Grouped first second := by
  intro grouped
  have mixed := grouped (crashOf "a:b" "c" " 0  m + 0x1") (crashOf "a" "b:c" " 0  m + 0x1") (by decide +kernel) (by decide +kernel)
  have same := mixed.hashed.mp (by decide +kernel)
  exact absurd same.process (by decide)

/-- Two directories part one crash. -/
theorem directories_part : ¬ Grouped (crashOf "a" "c" " 0  /usr/lib/m + 0x1") (crashOf "a" "c" " 0  /opt/m + 0x1") := by
  intro grouped
  have alike : Same (crashOf "a" "c" " 0  /usr/lib/m + 0x1") (crashOf "a" "c" " 0  /opt/m + 0x1") :=
    ⟨rfl, rfl, by decide +kernel⟩
  have differ : hashed (crashOf "a" "c" " 0  /usr/lib/m + 0x1") ≠ hashed (crashOf "a" "c" " 0  /opt/m + 0x1") := by
    decide +kernel
  exact differ (grouped.hashed.mpr alike)

end Crashomon.Proofs.CrashGroups
