import Crashomon.Tools.Report
import Crashomon.Web.Models

/-! The crash signature of a printed report. No printed frame is read back: only
a line break inside a text of the tombstone can produce a line that is. -/

namespace Crashomon.Proofs.ReportSignature
open Python Regex Tools.Report Web.Models

structure Printed where
  tombstone : ParsedTombstone
  symbols : SymbolTable
  showTrust : Bool
  deriving DecidableEq, Repr

def Printed.report (printed : Printed) : Text := formatSymbolicated printed.tombstone printed.symbols printed.showTrust

/-- Module and offset of the first three frames of the crashing thread that have a module. -/
def topFrames (tombstone : ParsedTombstone) : List (Text × Int) :=
  ((tombstone.threads.headD ⟨0, [], false, []⟩).frames.filter (·.modulePath ≠ [])).take 3 |>.map
    fun frame => (frame.modulePath, frame.moduleOffset)

/-- The grouping code reads the frames back: both reports are signed, and the
hashed strings are equal exactly when the frames are. -/
structure ReadsBack (sha256 : ByteArray → Vector UInt8 32) (process signal : Text) (first second : Printed) : Prop where
  signed : computeSignature sha256 process signal first.report ≠ []
  otherSigned : computeSignature sha256 process signal second.report ≠ []
  hashed : payload process signal (signatureFrames first.report) = payload process signal (signatureFrames second.report) ↔
    topFrames first.tombstone = topFrames second.tombstone

/-- The lines of a row after its first one. -/
def continuations (row : Text) : List Text := (splitlines (row.dropWhile (· = '\n'))).tail

/-- The frames that are read from lines which begin after a line break inside a text. -/
def smuggledFrames (printed : Printed) : List Text :=
  (((rows printed.tombstone printed.symbols printed.showTrust).flatMap continuations).filterMap readFrame).take 3

structure Smuggled (first second : Printed) : Prop where
  found : smuggledFrames first ≠ []
  otherFound : smuggledFrames second ≠ []
  agree : join ",".toList (smuggledFrames first) = join ",".toList (smuggledFrames second) ↔
    topFrames first.tombstone = topFrames second.tombstone

section Scraper

theorem collectFrames_eq (lines : List Text) {frames : List Text} (few : frames.length < 3) :
    collectFrames lines frames = (frames ++ lines.filterMap readFrame).take 3 := by
  induction lines generalizing frames with
  | nil =>
    rw [collectFrames, List.filterMap_nil, List.append_nil, List.take_of_length_le (Nat.le_of_lt few)]
  | cons line lines ih =>
    rw [collectFrames]
    cases seen : readFrame line with
    | none =>
      rw [List.filterMap_cons_none seen]
      exact ih few
    | some frame =>
      rw [List.filterMap_cons_some seen]
      have longer : (frames ++ [frame]).length = frames.length + 1 := by simp
      have grown : frames ++ frame :: lines.filterMap readFrame = (frames ++ [frame]) ++ lines.filterMap readFrame :=
        List.append_cons ..
      rw [grown]
      dsimp only
      split
      next full => rw [List.take_append_of_le_length full, List.take_of_length_le (by omega)]
      next room => exact ih (by omega)

theorem signed_iff (sha256 : ByteArray → Vector UInt8 32) (process signal report : Text) :
    computeSignature sha256 process signal report ≠ [] ↔ signatureFrames report ≠ [] := by
  rw [computeSignature]
  split
  next none => simp [none]
  next found =>
    simp only [ne_eq, found, not_false_eq_true, iff_true]
    intro empty
    have size := congrArg List.length empty
    simp [hexdigest, List.length_flatMap] at size

theorem payload_inj (process signal : Text) {first second : List Text} :
    payload process signal first = payload process signal second ↔ join ",".toList first = join ",".toList second :=
  List.append_cancel_left_eq ..|>.to_iff

end Scraper

section Rows

abbrev Unbroken (text : Text) : Prop := ∀ character ∈ text, ¬ isLineBreak character

theorem unbroken_literal {text : Text} (single : text.all fun character => !isLineBreak character) : Unbroken text := by
  intro character member
  simpa using List.all_eq_true.mp single character member

structure Inert (front : Text) : Prop where
  nonempty : front ≠ []
  unbroken : Unbroken front
  unread : ∀ later, readFrame (front ++ later) = none

theorem inert_visible {character : Char} {rest : Text} (visible : isSpace character = false)
    (unbroken : rest.all fun other => !isLineBreak other) : Inert (character :: rest) := by
  refine ⟨List.cons_ne_nil _ _, List.forall_mem_cons.mpr ⟨?_, unbroken_literal unbroken⟩, ?_⟩
  · intro breaks
    exact absurd (isSpace_of_isLineBreak breaks) (by simp [visible])
  · intro later
    refine Option.map_eq_none_iff.mpr (Pattern.search_anchored (Pattern.seq_failed ?_))
    exact Pattern.many_refused (by decide) (by simp [visible])

theorem inert_frame : Inert "    #".toList := by
  refine ⟨List.cons_ne_nil _ _, unbroken_literal rfl, ?_⟩
  intro later
  refine Option.map_eq_none_iff.mpr (Pattern.search_anchored (Pattern.many_then_many_refused (by decide) ?_))
  intro count _ within
  have blanks : (("    #".toList ++ later).takeWhile isSpace).length = 4 := rfl
  have few : count ≤ 4 := by simpa only [blanks] using within
  match count, few with
  | 0, _ | 1, _ | 2, _ | 3, _ | 4, _ => rfl

/-- The rest of a row up to its newline; a single line where the texts in it are. -/
def Ends (plain : Prop) (rest : Text) : Prop := ∃ body, rest = body ++ ['\n'] ∧ (plain → Unbroken body)

def Shaped (plain : Prop) (row : Text) : Prop :=
  ∃ front rest, Inert front ∧ Ends plain rest ∧ (row = front ++ rest ∨ row = '\n' :: (front ++ rest))

variable {plain : Prop} {row : Text}

theorem Ends.newline : Ends plain ['\n'] := ⟨[], rfl, fun _ _ member => absurd member List.not_mem_nil⟩

theorem Ends.text {text rest : Text} (unbroken : plain → Unbroken text) (ends : Ends plain rest) :
    Ends plain (text ++ rest) := by
  obtain ⟨body, rfl, clean⟩ := ends
  exact ⟨text ++ body, (List.append_assoc ..).symm, fun holds =>
    List.forall_mem_append.mpr ⟨unbroken holds, clean holds⟩⟩

theorem Ends.literal {text rest : Text} (unbroken : Unbroken text) (ends : Ends plain rest) : Ends plain (text ++ rest) :=
  ends.text fun _ => unbroken

theorem Ends.constant {text rest : Text} (single : text.all fun character => !isLineBreak character)
    (ends : Ends plain rest) : Ends plain (text ++ rest) :=
  ends.literal (unbroken_literal single)

theorem Shaped.ended (shaped : Shaped plain row) : ∃ body, row = body ++ ['\n'] := by
  obtain ⟨front, _, _, ⟨body, rfl, _⟩, rfl | rfl⟩ := shaped
  · exact ⟨front ++ body, (List.append_assoc ..).symm⟩
  · exact ⟨'\n' :: (front ++ body), by simp⟩

theorem Inert.dropWhile {front : Text} (inert : Inert front) (later : Text) :
    (front ++ later).dropWhile (· = '\n') = front ++ later := by
  cases front with
  | nil => exact absurd rfl inert.nonempty
  | cons character front =>
    refine List.dropWhile_cons_of_neg fun newline => inert.unbroken character List.mem_cons_self ?_
    rw [of_decide_eq_true newline]
    rfl

theorem Shaped.read (shaped : Shaped plain row) :
    (splitlines row).filterMap readFrame = (continuations row).filterMap readFrame := by
  obtain ⟨front, rest, inert, _, form⟩ := shaped
  obtain ⟨line, lines⟩ := splitlines_prefix inert.nonempty inert.unbroken rest
  have unread : (splitlines (front ++ rest)).filterMap readFrame = (splitlines (front ++ rest)).tail.filterMap readFrame := by
    rw [lines, List.filterMap_cons_none (inert.unread line), List.tail_cons]
  rcases form with rfl | rfl
  · rw [continuations, inert.dropWhile]
    exact unread
  · have blank : readFrame [] = none := rfl
    rw [continuations, List.dropWhile_cons_of_pos rfl, inert.dropWhile, splitlines_newline,
      List.filterMap_cons_none blank]
    exact unread

theorem Shaped.single (shaped : Shaped plain row) (holds : plain) : continuations row = [] := by
  obtain ⟨front, _, inert, ⟨body, rfl, unbroken⟩, form⟩ := shaped
  have whole : splitlines (front ++ (body ++ ['\n'])) = [front ++ body] := by
    rw [← List.append_assoc]
    exact splitlines_line (List.forall_mem_append.mpr ⟨inert.unbroken, unbroken holds⟩)
  rcases form with rfl | rfl
  · rw [continuations, inert.dropWhile, whole]
    rfl
  · rw [continuations, List.dropWhile_cons_of_pos rfl, inert.dropWhile, whole]
    rfl

end Rows

section Printer

/-- No text of the tombstone or of the symbol table contains a line break. -/
structure SingleLine (printed : Printed) : Prop where
  processName : Unbroken printed.tombstone.processName
  signalInfo : Unbroken printed.tombstone.signalInfo
  abortMessage : Unbroken printed.tombstone.abortMessage
  terminateType : Unbroken printed.tombstone.terminateType
  timestamp : Unbroken printed.tombstone.timestamp
  minidumpPath : Unbroken printed.tombstone.minidumpPath
  names : ∀ thread ∈ printed.tombstone.threads, Unbroken thread.name
  frames : ∀ thread ∈ printed.tombstone.threads, ∀ frame ∈ thread.frames,
    Unbroken frame.modulePath ∧ Unbroken frame.trailing ∧ Unbroken frame.trust
  symbols : ∀ entry ∈ printed.symbols, Unbroken entry.2.function ∧ Unbroken entry.2.sourceFile

theorem unbroken_formatInt (base width : Nat) (value : Int) (large : 1 < base) (small : base ≤ 16) :
    Unbroken (formatInt base width value) := by
  have digit : ∀ digit < base, ¬ isLineBreak (Nat.digitChar digit) := by
    intro digit below
    have all : ∀ digit < 16, ¬ isLineBreak (Nat.digitChar digit) := by decide
    exact all digit (Nat.lt_of_lt_of_le below small)
  simp only [formatInt, Unbroken, List.forall_mem_append]
  refine ⟨⟨?_, ?_⟩, forall_mem_toDigits large digit _⟩
  · split <;> exact unbroken_literal rfl
  · intro character member
    rw [List.eq_of_mem_replicate member]
    decide

theorem unbroken_decimal (value : Int) : Unbroken (decimal value) := unbroken_formatInt _ _ _ (by decide) (by decide)

theorem unbroken_hex (width : Nat) (value : Int) : Unbroken (hex width value) :=
  List.forall_mem_append.mpr ⟨unbroken_literal rfl, unbroken_formatInt _ _ _ (by decide) (by decide)⟩

variable {printed : Printed}

private theorem shaped_row {front rest : Text} (inert : Inert front)
    (ends : Ends (SingleLine printed) rest) : Shaped (SingleLine printed) (front ++ rest) :=
  ⟨front, rest, inert, ends, Or.inl rfl⟩

private theorem shaped_after_newline {front rest : Text} (inert : Inert front)
    (ends : Ends (SingleLine printed) rest) : Shaped (SingleLine printed) ('\n' :: (front ++ rest)) :=
  ⟨front, rest, inert, ends, Or.inr rfl⟩

theorem shaped_sep : Shaped (SingleLine printed) (sep ++ ['\n']) :=
  shaped_row (inert_visible rfl rfl) .newline

theorem shaped_pid : Shaped (SingleLine printed)
    ("pid: ".toList ++ decimal printed.tombstone.pid ++ ", tid: ".toList ++ decimal printed.tombstone.crashingTid ++
      ", name: ".toList ++ printed.tombstone.processName ++ "  >>> ".toList ++ printed.tombstone.processName ++
      " <<<".toList ++ ['\n']) := by
  simp only [List.append_assoc]
  exact shaped_row (inert_visible rfl rfl) <|
    .literal (unbroken_decimal _) <| .constant rfl <| .literal (unbroken_decimal _) <| .constant rfl <|
    .text (·.processName) <| .constant rfl <| .text (·.processName) <| .constant rfl .newline

theorem shaped_signal : Shaped (SingleLine printed) (signalRow printed.tombstone) := by
  unfold signalRow
  split
  next slash _ =>
    simp only [List.append_assoc]
    exact shaped_row (inert_visible rfl rfl) <|
      .literal (unbroken_decimal _) <| .constant rfl <|
      .text (fun clean character member => clean.signalInfo character (List.mem_of_mem_take member)) <|
      .constant rfl <| .literal (unbroken_decimal _) <| .constant rfl <|
      .text (fun clean character member => clean.signalInfo character (List.mem_of_mem_drop member)) <|
      .constant rfl <| .literal (unbroken_hex _ _) .newline
  next =>
    simp only [List.append_assoc]
    exact shaped_row (inert_visible rfl rfl) <|
      .literal (unbroken_decimal _) <| .constant rfl <| .text (·.signalInfo) <|
      .constant rfl <| .literal (unbroken_hex _ _) .newline

theorem shaped_abort : ∀ row ∈ abortRows printed.tombstone, Shaped (SingleLine printed) row := by
  unfold abortRows
  split
  next => exact List.forall_mem_nil _
  next =>
    split
    next =>
      simp only [List.append_assoc, List.forall_mem_singleton]
      exact shaped_row (inert_visible rfl rfl) <|
        .text (·.abortMessage) <| .constant rfl .newline
    next =>
      simp only [List.append_assoc, List.forall_mem_singleton]
      exact shaped_row (inert_visible rfl rfl) <|
        .text (·.terminateType) <| .constant rfl <| .text (·.abortMessage) <| .constant rfl .newline

theorem shaped_thread {thread : ParsedThread} (member : thread ∈ printed.tombstone.threads) :
    Shaped (SingleLine printed) (threadRow thread) := by
  unfold threadRow
  split
  next =>
    simp only [List.append_assoc]
    exact shaped_after_newline (inert_visible rfl rfl) <|
      .literal (unbroken_decimal _) <| .constant rfl .newline
  next =>
    simp only [List.append_assoc]
    exact shaped_after_newline (inert_visible rfl rfl) <|
      .literal (unbroken_decimal _) <| .constant rfl <| .text (fun clean => clean.names thread member) <|
      .constant rfl .newline

theorem shaped_frame {thread : ParsedThread} (member : thread ∈ printed.tombstone.threads) {frame : ParsedFrame}
    (within : frame ∈ thread.frames) (addrW : Nat) :
    Shaped (SingleLine printed) (frameRow thread.tid printed.symbols addrW printed.showTrust frame) := by
  have module (clean : SingleLine printed) :
      Unbroken (if frame.modulePath = [] then "???".toList else frame.modulePath) := by
    split
    next => exact unbroken_literal rfl
    next => exact (clean.frames thread member frame within).1
  have trailing (clean : SingleLine printed) :
      Unbroken (frameTrailing (printed.symbols.lookup (thread.tid, frame.index)) frame) := by
    have own := (clean.frames thread member frame within).2.1
    unfold frameTrailing
    split
    next => exact own
    next sym found =>
      obtain ⟨function, file⟩ := clean.symbols _ (mem_of_lookup found)
      split
      next => exact own
      next =>
        split
        next =>
          simp only [Unbroken, List.forall_mem_append]
          exact ⟨⟨⟨⟨⟨⟨unbroken_literal rfl, function⟩, unbroken_literal rfl⟩, file⟩, unbroken_literal rfl⟩, unbroken_decimal _⟩,
            unbroken_literal rfl⟩
        next =>
          simp only [Unbroken, List.forall_mem_append]
          exact ⟨⟨unbroken_literal rfl, function⟩, unbroken_literal rfl⟩
  have suffix (clean : SingleLine printed) : Unbroken (trustSuffix printed.showTrust frame) := by
    have trust := (clean.frames thread member frame within).2.2
    unfold trustSuffix
    split
    next =>
      split
      next =>
        simp only [Unbroken, List.forall_mem_append]
        exact ⟨⟨unbroken_literal rfl, trust⟩, unbroken_literal rfl⟩
      next => exact unbroken_literal rfl
    next => split <;> exact unbroken_literal rfl
  have spaced (clean : SingleLine printed) :
      Unbroken (if frameTrailing (printed.symbols.lookup (thread.tid, frame.index)) frame = [] then []
        else "  ".toList ++ frameTrailing (printed.symbols.lookup (thread.tid, frame.index)) frame) := by
    split
    next => exact unbroken_literal rfl
    next => exact List.forall_mem_append.mpr ⟨unbroken_literal rfl, trailing clean⟩
  unfold frameRow
  simp only [List.append_assoc]
  exact shaped_row inert_frame <|
    .literal (unbroken_formatInt _ _ _ (by decide) (by decide)) <| .constant rfl <| .literal (unbroken_hex _ _) <|
    .constant rfl <| .text module <| .text spaced <| .text suffix .newline

theorem shaped_stack {thread : ParsedThread} (member : thread ∈ printed.tombstone.threads) (addrW : Nat) :
    ∀ row ∈ emitStackTraceSection thread printed.symbols addrW printed.showTrust, Shaped (SingleLine printed) row := by
  intro row printedRow
  obtain ⟨frame, within, rfl⟩ := List.mem_map.mp printedRow
  exact shaped_frame member within addrW

theorem shaped_rows (printed : Printed) :
    ∀ row ∈ rows printed.tombstone printed.symbols printed.showTrust, Shaped (SingleLine printed) row := by
  simp only [rows, List.forall_mem_append, List.forall_mem_cons]
  refine ⟨⟨⟨⟨⟨⟨⟨shaped_sep, shaped_pid, shaped_signal, List.forall_mem_nil _⟩, shaped_abort⟩, ?_⟩, ?_⟩, ?_⟩, ?_⟩, shaped_sep,
    List.forall_mem_nil _⟩
  · split
    next => exact List.forall_mem_nil _
    next =>
      simp only [List.append_assoc, List.forall_mem_singleton]
      exact shaped_row (inert_visible rfl rfl) <| .text (·.timestamp) .newline
  · split
    next thread others seen =>
      split
      next =>
        have member : thread ∈ printed.tombstone.threads := seen ▸ List.mem_cons_self
        refine List.forall_mem_cons.mpr ⟨?_, shaped_stack member _⟩
        have inert : Inert "backtrace:".toList := inert_visible rfl rfl
        exact shaped_after_newline inert .newline
      next => exact List.forall_mem_nil _
    next => exact List.forall_mem_nil _
  · intro row member
    obtain ⟨thread, dropped, printedRow⟩ := List.mem_flatMap.mp member
    have within := List.mem_of_mem_drop dropped
    rcases List.mem_cons.mp printedRow with rfl | frame
    · exact shaped_thread within
    · exact shaped_stack within _ row frame
  · split
    next => exact List.forall_mem_nil _
    next =>
      simp only [List.append_assoc, List.forall_mem_singleton]
      exact shaped_after_newline (inert_visible rfl rfl) <| .text (·.minidumpPath) .newline

/-- Every frame that is read comes from after a line break inside a text. -/
theorem signatureFrames_report (printed : Printed) : signatureFrames printed.report = smuggledFrames printed := by
  have shaped := shaped_rows printed
  have read : ((rows printed.tombstone printed.symbols printed.showTrust).flatMap splitlines).filterMap readFrame =
      ((rows printed.tombstone printed.symbols printed.showTrust).flatMap continuations).filterMap readFrame := by
    rw [List.filterMap_flatMap, List.filterMap_flatMap]
    exact List.flatMap_congr fun row member => (shaped row member).read
  rw [signatureFrames, Printed.report, formatSymbolicated, splitlines_flatten fun row member => (shaped row member).ended,
    collectFrames_eq _ (by decide), List.nil_append, read, smuggledFrames]

end Printer

/-- A tombstone of single-line texts is never signed. -/
theorem single_line_unsigned (sha256 : ByteArray → Vector UInt8 32) (process signal : Text) {printed : Printed}
    (clean : SingleLine printed) : computeSignature sha256 process signal printed.report = [] := by
  have nothing : smuggledFrames printed = [] := by
    have empty : (rows printed.tombstone printed.symbols printed.showTrust).flatMap continuations = [] :=
      List.flatMap_eq_nil_iff.mpr fun row member => (shaped_rows printed row member).single clean
    rw [smuggledFrames, empty]
    rfl
  by_contra signed
  exact (signed_iff sha256 process signal printed.report).mp signed ((signatureFrames_report printed).trans nothing)

theorem readsBack_iff_smuggled (sha256 : ByteArray → Vector UInt8 32) (process signal : Text) (first second : Printed) :
    ReadsBack sha256 process signal first second ↔ Smuggled first second := by
  have frames := signatureFrames_report first
  have otherFrames := signatureFrames_report second
  constructor
  · intro ⟨signed, otherSigned, hashed⟩
    rw [signed_iff, frames] at signed
    rw [signed_iff, otherFrames] at otherSigned
    rw [payload_inj, frames, otherFrames] at hashed
    exact ⟨signed, otherSigned, hashed⟩
  · intro ⟨found, otherFound, agree⟩
    rw [← frames] at found agree
    rw [← otherFrames] at otherFound agree
    exact ⟨(signed_iff ..).mpr found, (signed_iff ..).mpr otherFound, (payload_inj ..).trans agree⟩

/-- The frames of tombstones whose texts are single lines are never read back. Otherwise they are only where line breaks in the
texts of both tombstones produce lines that stand for them. -/
theorem reads_back_iff (sha256 : ByteArray → Vector UInt8 32) (process signal : Text) (first second : Printed) :
    (SingleLine first ∨ SingleLine second → ¬ ReadsBack sha256 process signal first second) ∧
      (ReadsBack sha256 process signal first second ↔ Smuggled first second) := by
  refine ⟨?never, readsBack_iff_smuggled sha256 process signal first second⟩
  case never =>
    rintro (clean | clean) readsBack
    · exact readsBack.signed (single_line_unsigned sha256 process signal clean)
    · exact readsBack.otherSigned (single_line_unsigned sha256 process signal clean)

def segfault : Printed where
  tombstone :=
    { pid := 42, crashingTid := 42, processName := "svc".toList, signalInfo := "SIGSEGV / SEGV_MAPERR".toList,
      signalNumber := 11, signalCode := 0, faultAddr := 0, timestamp := [], minidumpPath := [], abortMessage := [],
      terminateType := [],
      threads := [⟨42, [], true, [⟨0, 0x1234, "libfoo.so".toList, [], "context".toList⟩]⟩] }
  symbols := []
  showTrust := false

theorem printed_frames_not_read :
    ¬ ReadsBack (fun _ => Vector.replicate 32 0) "svc".toList "SIGSEGV".toList segfault segfault := by
  have unread : signatureFrames segfault.report = [] := by decide +kernel
  intro readsBack
  exact (signed_iff _ _ _ _).mp readsBack.signed unread

end Crashomon.Proofs.ReportSignature
