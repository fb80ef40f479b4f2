import Crashomon.Proofs.ReportSignature
import Crashomon.Web.App

/-! The process and the signal of a crash, scraped from its printed report. The header
prints them first, but the last line that looks like a header wins. -/

namespace Crashomon.Proofs.ReportMeta
open Python Regex Regex.Pattern Tools.Report Web.App ReportSignature

/-- `signal_info` up to " / ". -/
def signalName (tombstone : ParsedTombstone) : Text :=
  match find " / ".toList tombstone.signalInfo with
  | some slash => tombstone.signalInfo.take slash
  | none => tombstone.signalInfo

structure PlainHeader (tombstone : ParsedTombstone) : Prop where
  named : tombstone.processName ≠ []
  solid : ∀ character ∈ tombstone.processName, isSpace character = false
  signaled : signalName tombstone ≠ []
  unclosed : ')' ∉ signalName tombstone
  unbroken : Unbroken (signalName tombstone)

/-- The lines after the one that names the process: that of the signal, and those of all the other texts. -/
def laterLines (printed : Printed) : List Text :=
  ((rows printed.tombstone printed.symbols printed.showTrust).drop 2).flatMap splitlines

def Absent (pattern : Pattern) (lines : List Text) : Prop := ∀ line ∈ lines, ¬ pattern.Occurs line

/-- The last of the lines that have the pattern gives the value. -/
def LastGives (pattern : Pattern) (value : Text) (lines : List Text) : Prop :=
  ∃ before line after, lines = before ++ line :: after ∧ pattern.search line = some [value] ∧ Absent pattern after

/-- A name that is bracketed in itself, or where the header prints it twice. -/
def Bracketing (name : Text) : Prop := processPattern.Occurs name ∨ ">>>".toList <:+ name ∧ "<<<".toList <+: name

def ProcessKept (printed : Printed) : Prop :=
  LastGives processPattern printed.tombstone.processName (laterLines printed) ∨
    Absent processPattern (laterLines printed) ∧ ¬ Bracketing printed.tombstone.processName

/-- The line of the signal has its pattern only where the number has no sign. -/
def SignalKept (printed : Printed) : Prop :=
  if 0 ≤ printed.tombstone.signalNumber then
    LastGives signalPattern (signalName printed.tombstone) (laterLines printed).tail ∨
      Absent signalPattern (laterLines printed).tail
  else
    LastGives signalPattern (signalName printed.tombstone) (laterLines printed) ∨
      Absent signalPattern (laterLines printed) ∧ signalName printed.tombstone = "unknown".toList

section Scraper

def captured (pattern : Pattern) (line : Text) : Option Text := (pattern.search line).map fun groups => groups.getD 0 []

def lastTaken (pattern : Pattern) (lines : List Text) : Option Text := (lines.filterMap (captured pattern)).getLast?

theorem lastTaken_cons (pattern : Pattern) (line : Text) (lines : List Text) :
    lastTaken pattern (line :: lines) = (lastTaken pattern lines).or (captured pattern line) := by
  rw [lastTaken, lastTaken]
  cases seen : captured pattern line with
  | none => rw [List.filterMap_cons_none seen, Option.or_none]
  | some value =>
    rw [List.filterMap_cons_some seen, List.getLast?_cons]
    cases (lines.filterMap (captured pattern)).getLast? <;> rfl

theorem extractMeta_eq (report : Text) :
    extractMeta report = ((lastTaken processPattern (splitlines report)).getD "unknown".toList,
      (lastTaken signalPattern (splitlines report)).getD "unknown".toList) := by
  have fold (lines : List Text) (process signal : Text) :
      lines.foldl (fun taken line =>
        ((captured processPattern line).getD taken.1, (captured signalPattern line).getD taken.2)) (process, signal) =
        ((lastTaken processPattern lines).getD process, (lastTaken signalPattern lines).getD signal) := by
    induction lines generalizing process signal with
    | nil => rfl
    | cons line lines ih =>
      rw [List.foldl_cons, ih, lastTaken_cons, lastTaken_cons, Option.getD_or, Option.getD_or]
  exact fold ..

/-- A pattern with one group. -/
structure Capturing (pattern : Pattern) : Prop where
  floating : pattern.Floating
  single : ∀ text groups, pattern.Reads text groups → ∃ value, groups = [value]

variable {pattern : Pattern}

theorem Capturing.of_search (capturing : Capturing pattern) {line : Text} {groups : List Text}
    (found : pattern.search line = some groups) : ∃ value, groups = [value] := by
  obtain ⟨_, last, reached, same⟩ := search_reaches found
  obtain ⟨text, taken, reads, _, _, more⟩ := reads_of_mem capturing.floating reached
  obtain ⟨value, rfl⟩ := capturing.single text taken reads
  exact ⟨value, by rw [← same, more]; rfl⟩

theorem lastTaken_none (capturing : Capturing pattern) {lines : List Text} :
    lastTaken pattern lines = none ↔ Absent pattern lines := by
  rw [lastTaken, List.getLast?_eq_none_iff, List.filterMap_eq_nil_iff]
  simp only [captured, Option.map_eq_none_iff, search_eq_none capturing.floating, Absent]

theorem lastTaken_some (capturing : Capturing pattern) {lines : List Text} {value : Text} :
    lastTaken pattern lines = some value ↔ LastGives pattern value lines := by
  induction lines with
  | nil => simp [lastTaken, LastGives]
  | cons line lines ih =>
    rw [lastTaken_cons, Option.or_eq_some_iff, ih, lastTaken_none capturing, captured, Option.map_eq_some_iff]
    constructor
    · rintro (⟨before, other, after, rfl, found, absent⟩ | ⟨absent, groups, found, same⟩)
      · exact ⟨line :: before, other, after, rfl, found, absent⟩
      · obtain ⟨only, rfl⟩ := capturing.of_search found
        exact ⟨[], line, lines, rfl, found.trans (by rw [← same]; rfl), absent⟩
    · intro ⟨before, other, after, split, found, absent⟩
      cases before with
      | nil =>
        obtain ⟨rfl, rfl⟩ := List.cons.inj split
        exact Or.inr ⟨absent, [value], found, rfl⟩
      | cons head before =>
        obtain ⟨rfl, rfl⟩ := List.cons.inj split
        exact Or.inl ⟨before, other, after, rfl, found, absent⟩

theorem lastTaken_getD (capturing : Capturing pattern) {lines : List Text} (other value : Text) :
    (lastTaken pattern lines).getD other = value ↔ LastGives pattern value lines ∨ Absent pattern lines ∧ other = value := by
  rw [← lastTaken_none capturing, ← lastTaken_some capturing]
  cases lastTaken pattern lines <;> simp

end Scraper

section Words

/-- A word ends before the first blank. -/
theorem word_before_blank (word : Text) {run rest later : Text} {blank : Char} (space : isSpace blank = true)
    (solid : ∀ character ∈ word, isSpace character = false) (same : run ++ blank :: later = word ++ rest) :
    ∃ middle, run = word ++ middle ∧ rest = middle ++ blank :: later := by
  rcases List.append_eq_append_iff.mp same with ⟨middle, longer, tail⟩ | ⟨middle, longer, tail⟩
  · cases middle with
    | nil => exact ⟨[], by rw [longer, List.append_nil, List.append_nil], tail.symm⟩
    | cons first middle =>
      obtain ⟨rfl, _⟩ := List.cons.inj tail
      have outside := solid blank (longer ▸ List.mem_append_right run List.mem_cons_self)
      rw [space] at outside
      cases outside
  · exact ⟨middle, longer, tail⟩

/-- Blanks end where something else begins. -/
theorem same_blanks {blanks others first second : Text} (spaces : ∀ character ∈ blanks, isSpace character = true)
    (spacesToo : ∀ character ∈ others, isSpace character = true) (begins : first.head?.all fun character => !isSpace character)
    (beginsToo : second.head?.all fun character => !isSpace character) (same : blanks ++ first = others ++ second) :
    blanks = others ∧ first = second := by
  have run : blanks = others := by
    rw [← takeWhile_run spaces begins, same, takeWhile_run spacesToo beginsToo]
  exact ⟨run, List.append_cancel_left (run ▸ same)⟩

theorem begins_solid {word rest : Text} (nonempty : word ≠ []) (solid : ∀ character ∈ word, isSpace character = false) :
    (word ++ rest).head?.all fun character => !isSpace character := by
  cases word with
  | nil => exact absurd rfl nonempty
  | cons character word => simp [solid character List.mem_cons_self]

end Words

section Header

/-- What the process pattern reads. -/
def brackets (spaces name more : Text) : Text := ">>>".toList ++ (spaces ++ (name ++ (more ++ "<<<".toList)))

theorem reads_process {text : Text} {groups : List Text} :
    processPattern.Reads text groups ↔ ∃ spaces name more, text = brackets spaces name more ∧ groups = [name] ∧
      (∀ character ∈ spaces, isSpace character = true) ∧ name ≠ [] ∧ (∀ character ∈ name, isSpace character = false) ∧
      ∀ character ∈ more, isSpace character = true := by
  constructor
  · intro reads
    obtain ⟨_, _, _, _, rfl, rfl, ⟨⟨_, first, rfl⟩, rfl⟩, reads⟩ := reads
    obtain ⟨_, _, _, _, rfl, rfl, ⟨⟨_, second, rfl⟩, rfl⟩, reads⟩ := reads
    obtain ⟨_, _, _, _, rfl, rfl, ⟨⟨_, third, rfl⟩, rfl⟩, reads⟩ := reads
    obtain ⟨spaces, _, _, _, rfl, rfl, ⟨⟨_, blank⟩, rfl⟩, reads⟩ := reads
    obtain ⟨name, _, _, _, rfl, rfl, ⟨_, rfl, ⟨⟨nonempty, solid⟩, rfl⟩⟩, reads⟩ := reads
    obtain ⟨more, _, _, _, rfl, rfl, ⟨⟨_, blankToo⟩, rfl⟩, reads⟩ := reads
    obtain ⟨_, _, _, _, rfl, rfl, ⟨⟨_, fourth, rfl⟩, rfl⟩, reads⟩ := reads
    obtain ⟨_, _, _, _, rfl, rfl, ⟨⟨_, fifth, rfl⟩, rfl⟩, ⟨_, sixth, rfl⟩, rfl⟩ := reads
    rw [of_decide_eq_true first, of_decide_eq_true second, of_decide_eq_true third, of_decide_eq_true fourth,
      of_decide_eq_true fifth, of_decide_eq_true sixth]
    refine ⟨spaces, name, more, rfl, rfl, blank, List.ne_nil_of_length_pos nonempty, ?_, blankToo⟩
    intro character member
    simpa using solid character member
  · intro ⟨spaces, name, more, text, taken, blank, nonempty, solid, blankToo⟩
    rw [text, taken]
    refine ⟨['>'], _, [], [name], rfl, rfl, ⟨⟨_, rfl, rfl⟩, rfl⟩, ?_⟩
    refine ⟨['>'], _, [], [name], rfl, rfl, ⟨⟨_, rfl, rfl⟩, rfl⟩, ?_⟩
    refine ⟨['>'], _, [], [name], rfl, rfl, ⟨⟨_, rfl, rfl⟩, rfl⟩, ?_⟩
    refine ⟨spaces, _, [], [name], rfl, rfl, ⟨⟨Nat.zero_le _, blank⟩, rfl⟩, ?_⟩
    refine ⟨name, _, [name], [], rfl, rfl, ⟨[], rfl, ⟨⟨List.length_pos_iff.mpr nonempty, ?_⟩, rfl⟩⟩, ?_⟩
    · intro character member
      simp [solid character member]
    refine ⟨more, _, [], [], rfl, rfl, ⟨⟨Nat.zero_le _, blankToo⟩, rfl⟩, ?_⟩
    refine ⟨['<'], _, [], [], rfl, rfl, ⟨⟨_, rfl, rfl⟩, rfl⟩, ?_⟩
    exact ⟨['<'], ['<'], [], [], rfl, rfl, ⟨⟨_, rfl, rfl⟩, rfl⟩, ⟨_, rfl, rfl⟩, rfl⟩

theorem capturing_process : Capturing processPattern := by
  refine ⟨by simp [processPattern, Floating], ?_⟩
  intro text groups reads
  obtain ⟨_, name, _, _, same, _⟩ := reads_process.mp reads
  exact ⟨name, same⟩

/-- The end of the line that names the process, from the name on. -/
def bracketed (name : Text) : Text := name ++ ("  ".toList ++ brackets [' '] name [' '])

/-- A match that begins in the first copy of the name ends in it, or takes the brackets of the header for a name. -/
theorem match_in_name {run name spaces other more back : Text} (solid : ∀ character ∈ run, isSpace character = false)
    (named : name ≠ []) (nameSolid : ∀ character ∈ name, isSpace character = false)
    (blank : ∀ character ∈ spaces, isSpace character = true) (nonempty : other ≠ [])
    (otherSolid : ∀ character ∈ other, isSpace character = false) (blankToo : ∀ character ∈ more, isSpace character = true)
    (here : run ++ ("  ".toList ++ brackets [' '] name [' ']) = brackets spaces other more ++ back) :
    (∃ middle, run = brackets [] other [] ++ middle) ∨ run = ">>>".toList ∧ other = ">>>".toList ∧ "<<<".toList <+: name := by
  simp only [brackets, List.append_assoc] at here
  obtain ⟨later, rfl, rest⟩ := word_before_blank ">>>".toList rfl (solid_of_all rfl) here
  have laterSolid := fun character member => solid character (List.mem_append_right _ member)
  cases later with
  | cons first later =>
    obtain ⟨rfl, rest⟩ := same_blanks blank (List.forall_mem_nil _) (begins_solid nonempty otherSolid)
      (begins_solid (List.cons_ne_nil first later) laterSolid) rest
    obtain ⟨middle, split, rest⟩ := word_before_blank other rfl otherSolid rest.symm
    rw [split] at laterSolid ⊢
    cases middle with
    | nil =>
      have closing : more ++ ("<<<".toList ++ back) = [' ', ' '] ++ brackets [' '] name [' '] := rest
      obtain ⟨_, impossible⟩ := same_blanks blankToo (List.all_eq_true.mp rfl) rfl rfl closing
      exact absurd (List.cons.inj impossible).1 (by decide)
    | cons next middle =>
      have solidNext := fun character member => laterSolid character (List.mem_append_right _ member)
      obtain ⟨rfl, rest⟩ := same_blanks blankToo (List.forall_mem_nil _) rfl (begins_solid (List.cons_ne_nil next middle) solidNext) rest
      obtain ⟨last, ended, _⟩ := word_before_blank "<<<".toList rfl (solid_of_all rfl) rest.symm
      refine Or.inl ⟨last, ?_⟩
      rw [ended]
      simp [brackets]
  | nil =>
    have spread : spaces ++ (other ++ (more ++ ("<<<".toList ++ back))) =
        [' ', ' '] ++ (">>>".toList ++ ' ' :: (name ++ " <<<".toList)) := rest
    obtain ⟨rfl, begun⟩ := same_blanks blank (List.all_eq_true.mp rfl) (begins_solid nonempty otherSolid) rfl spread
    obtain ⟨middle, split, rest⟩ := word_before_blank other rfl otherSolid begun.symm
    cases middle with
    | nil =>
      have closing : more ++ ("<<<".toList ++ back) = [' '] ++ (name ++ ' ' :: "<<<".toList) := rest
      obtain ⟨rfl, opened⟩ := same_blanks blankToo (List.all_eq_true.mp rfl) rfl (begins_solid named nameSolid) closing
      obtain ⟨last, ended, _⟩ := word_before_blank "<<<".toList rfl (solid_of_all rfl) opened.symm
      exact Or.inr ⟨rfl, by rw [split, List.append_nil], last, ended.symm⟩
    | cons next middle =>
      have member : next ∈ ">>>".toList := split ▸ List.mem_append_right _ List.mem_cons_self
      have same : next = '>' := by simpa using member
      have begins : (next :: middle ++ ' ' :: (name ++ " <<<".toList)).head?.all fun character => !isSpace character := by
        rw [same]
        rfl
      have closing : more ++ ("<<<".toList ++ back) = [] ++ (next :: middle ++ ' ' :: (name ++ " <<<".toList)) := rest
      obtain ⟨_, impossible⟩ := same_blanks blankToo (List.forall_mem_nil _) rfl begins closing
      rw [same] at impossible
      exact absurd (List.cons.inj impossible).1 (by decide)

/-- What a match before the brackets of the header takes. -/
theorem early_match {front name : Text} {position : Nat} (solid : ∀ character ∈ name, isSpace character = false)
    (nonempty : name ≠ []) (plain : '>' ∉ front) (early : position < front.length + (name.length + 2))
    {spaces other more back : Text} (blank : ∀ character ∈ spaces, isSpace character = true) (some_other : other ≠ [])
    (solidToo : ∀ character ∈ other, isSpace character = false) (blankToo : ∀ character ∈ more, isSpace character = true)
    (here : (front ++ bracketed name).drop position = brackets spaces other more ++ back) :
    Bracketing name ∧ other ≠ name := by
  by_cases before : position < front.length
  · rw [List.drop_append_of_le_length (Nat.le_of_lt before), List.drop_eq_getElem_cons before] at here
    have first : front[position] = '>' := (List.cons.inj here).1
    exact absurd (first ▸ List.getElem_mem before) plain
  obtain ⟨place, rfl⟩ := Nat.exists_eq_add_of_le (Nat.le_of_not_lt before)
  rw [List.drop_append, List.drop_eq_nil_of_le (Nat.le_add_right _ _), Nat.add_sub_cancel_left, List.nil_append] at here
  by_cases within : place ≤ name.length
  · rw [bracketed, List.drop_append_of_le_length within] at here
    have dropSolid := fun character member => solid character (List.mem_of_mem_drop (i := place) member)
    rcases match_in_name dropSolid nonempty solid blank some_other solidToo blankToo here with ⟨middle, split⟩ | ⟨ends, rfl, begins⟩
    · have whole : name = name.take place ++ (brackets [] other [] ++ middle) := by
        rw [← split, List.take_append_drop]
      refine ⟨Or.inl ⟨name.take place, _, middle, [other], whole, reads_process.mpr ⟨[], other, [], rfl, rfl, ?_⟩⟩, ?_⟩
      · exact ⟨List.forall_mem_nil _, some_other, solidToo, List.forall_mem_nil _⟩
      · intro same
        have size := congrArg List.length whole
        rw [← same] at size
        simp only [brackets, List.length_append, List.length_take, List.length_nil] at size
        have three : ">>>".toList.length = 3 := rfl
        omega
    · refine ⟨Or.inr ⟨ends ▸ List.drop_suffix place name, begins⟩, ?_⟩
      rintro rfl
      exact absurd begins (by decide)
  · have last : place = name.length + 1 := by omega
    rw [last, bracketed, List.drop_append, List.drop_eq_nil_of_le (Nat.le_succ _), Nat.add_sub_cancel_left] at here
    exact absurd (List.cons.inj here).1 (by decide)

theorem header_first {name : Text} (nonempty : name ≠ []) (solid : ∀ character ∈ name, isSpace character = false)
    (position : Nat) : ∃ last, First processPattern ⟨position, brackets [' '] name [' '], []⟩ last ∧ last.groups = [name] := by
  have stops : ((' ' :: "<<<".toList).head?.all fun character => !(!isSpace character)) = true := rfl
  have accepted : ∀ character ∈ name, (!isSpace character) = true := by
    intro character member
    simp [solid character member]
  refine ⟨_, .seq (first_one rfl _ _) <| .seq (first_one rfl _ _) <| .seq (first_one rfl _ _) <|
    .seq (first_many [' '] (List.all_eq_true.mp rfl) (Nat.zero_le _) (begins_solid nonempty solid) _ _) <|
    .seq (First.group (first_many name accepted (List.length_pos_iff.mpr nonempty) stops _ _)) <|
    .seq (first_many [' '] (List.all_eq_true.mp rfl) (Nat.zero_le _) rfl _ _) <|
    .seq (first_one rfl _ _) <| .seq (first_one rfl _ _) (first_one rfl _ _), rfl⟩

theorem header_position {front name : Text} :
    (front ++ bracketed name).drop (front.length + (name.length + 2)) = brackets [' '] name [' '] := by
  rw [← List.drop_drop, List.drop_left, bracketed, ← List.drop_drop, List.drop_left]
  rfl

/-- A name that brackets itself is found before the brackets of the header. -/
theorem match_before (front : Text) {name : Text} (bracketing : Bracketing name) :
    ∃ position < front.length + (name.length + 2),
      processPattern.successes ⟨position, (front ++ bracketed name).drop position, []⟩ ≠ [] := by
  have found (before back : Text) {middle : Text} {groups : List Text} (reads : processPattern.Reads middle groups)
      (here : front ++ bracketed name = before ++ (middle ++ back)) :
      processPattern.successes ⟨before.length, (front ++ bracketed name).drop before.length, []⟩ ≠ [] := by
    rw [here, List.drop_left]
    exact List.ne_nil_of_mem (mem_of_reads reads before.length [])
  rcases bracketing with ⟨before, middle, back, groups, whole, reads⟩ | ⟨⟨before, ends⟩, back, begins⟩
  · refine ⟨(front ++ before).length, ?_, found (front ++ before) (back ++ ("  ".toList ++ brackets [' '] name [' '])) reads ?_⟩
    · have size := congrArg List.length whole
      rw [List.length_append] at size ⊢
      omega
    · have split : bracketed name = (before ++ (middle ++ back)) ++ ("  ".toList ++ brackets [' '] name [' ']) := by
        rw [← whole, bracketed]
      rw [split]
      simp only [List.append_assoc]
  · have reads : processPattern.Reads (brackets "  ".toList ">>>".toList [' ']) [">>>".toList] :=
      reads_process.mpr ⟨_, _, _, rfl, rfl, List.all_eq_true.mp rfl, by decide, solid_of_all rfl, List.all_eq_true.mp rfl⟩
    refine ⟨(front ++ before).length, ?_, found (front ++ before) (back ++ " <<<".toList) reads ?_⟩
    · have size := congrArg List.length ends
      rw [List.length_append] at size ⊢
      omega
    · have split : bracketed name = (before ++ ">>>".toList) ++ ("  >>> ".toList ++ (("<<<".toList ++ back) ++ " <<<".toList)) := by
        rw [ends, begins]
        rfl
      rw [split]
      simp only [brackets, List.append_assoc]
      rfl

theorem header_gives_iff {front name : Text} (solid : ∀ character ∈ name, isSpace character = false)
    (nonempty : name ≠ []) (plain : '>' ∉ front) :
    processPattern.search (front ++ bracketed name) = some [name] ↔ ¬ Bracketing name := by
  have early {position : Nat} {last : Cursor} (before : position < front.length + (name.length + 2))
      (reached : last ∈ processPattern.successes ⟨position, (front ++ bracketed name).drop position, []⟩) :
      Bracketing name ∧ last.groups ≠ [name] := by
    obtain ⟨text, groups, reads, here, _, taken⟩ := reads_of_mem capturing_process.floating reached
    obtain ⟨spaces, other, more, rfl, rfl, blank, some_other, otherSolid, blankToo⟩ := reads_process.mp reads
    obtain ⟨bracketing, differs⟩ := early_match solid nonempty plain before blank some_other otherSolid blankToo here
    refine ⟨bracketing, ?_⟩
    rw [taken]
    intro same
    exact differs (List.cons.inj same).1
  rw [search_eq_some]
  constructor
  · intro ⟨position, _, last, first, same, nothing⟩ bracketing
    obtain ⟨place, before, reached⟩ := match_before front bracketing
    have sooner : position ≤ place := Nat.le_of_not_lt fun later => reached (nothing place later)
    exact (early (Nat.lt_of_le_of_lt sooner before) (List.mem_of_mem_head? first)).2 same
  · intro unbracketed
    obtain ⟨last, first, taken⟩ := header_first nonempty solid (front.length + (name.length + 2))
    refine ⟨front.length + (name.length + 2), ?_, last, header_position ▸ first, taken, ?_⟩
    · rw [bracketed, List.length_append, List.length_append, List.length_append]
      have two : "  ".toList.length = 2 := rfl
      omega
    · intro earlier before
      apply List.eq_nil_iff_forall_not_mem.mpr
      intro other reached
      exact unbracketed (early before reached).1

end Header

section Signal

theorem capturing_signal : Capturing signalPattern := by
  refine ⟨floating_literal (by simp [Floating]), ?_⟩
  intro text groups reads
  obtain ⟨_, _, numbered⟩ := reads_literal reads
  obtain ⟨_, _, _, _, _, rfl, ⟨_, rfl⟩, _, _, _, _, _, rfl, ⟨_, rfl⟩, _, _, _, _, _, rfl, ⟨_, rfl⟩, named⟩ := numbered
  obtain ⟨_, _, _, _, _, rfl, ⟨_, rfl⟩, name, _, _, _, _, rfl, ⟨_, rfl, _, rfl⟩, _, rfl⟩ := named
  exact ⟨name, rfl⟩

/-- The word "signal", blanks, and a digit. -/
def Numbered (text : Text) : Prop :=
  ∃ front blank rest, text = front ++ ("signal".toList ++ blank :: rest) ∧ isSpace blank = true ∧
    (rest.dropWhile isSpace).head?.any isDecimal = true

theorem not_space_of_decimal {character : Char} (decimal : isDecimal character = true) : isSpace character = false := by
  obtain ⟨first, member, within⟩ := List.any_eq_true.mp decimal
  have apart : ∀ first ∈ decimalZeros, 0x20 < first ∧ (first + 10 ≤ 0x85 ∨ 0xA0 < first ∧ first + 10 ≤ 0x1680 ∨
      0x1680 < first ∧ first + 10 ≤ 0x2000 ∨ 0x3000 < first) := by decide
  have place := apart first member
  simp only [Bool.and_eq_true, decide_eq_true_eq] at within
  by_contra space
  simp only [isSpace, Bool.not_eq_false, Bool.or_eq_true, Bool.and_eq_true, decide_eq_true_eq, beq_iff_eq] at space
  omega

theorem numbered_of_occurs {text : Text} (occurs : signalPattern.Occurs text) : Numbered text := by
  obtain ⟨front, _, back, _, here, reads⟩ := occurs
  obtain ⟨_, rfl, numbered⟩ := reads_literal reads
  obtain ⟨spaces, _, _, _, rfl, rfl, ⟨⟨some_blank, blank⟩, rfl⟩, counted⟩ := numbered
  obtain ⟨digits, rest, _, _, rfl, rfl, ⟨⟨some_digit, decimal⟩, rfl⟩, _⟩ := counted
  obtain ⟨first, spaces, rfl⟩ := List.exists_cons_of_length_pos some_blank
  obtain ⟨digit, digits, rfl⟩ := List.exists_cons_of_length_pos some_digit
  obtain ⟨space, spaced⟩ := List.forall_mem_cons.mp blank
  have decimalFirst := decimal digit List.mem_cons_self
  refine ⟨front, first, spaces ++ (digit :: digits ++ rest ++ back), ?_, space, ?_⟩
  · rw [here]
    simp only [List.cons_append, List.append_assoc]
  · have begins : (digit :: digits ++ rest ++ back).dropWhile isSpace = digit :: digits ++ rest ++ back :=
      List.dropWhile_cons_of_neg (by simp [not_space_of_decimal decimalFirst])
    rw [List.dropWhile_append_of_pos spaced, begins]
    exact decimalFirst

/-- Only the last word before the blanks counts. -/
theorem numbered_after_word {word rest : Text} (solid : ∀ character ∈ word, isSpace character = false)
    (numbered : Numbered (word ++ ' ' :: rest)) :
    word.getLast? = some 'l' ∧ (rest.dropWhile isSpace).head?.any isDecimal = true ∨ Numbered rest := by
  obtain ⟨front, blank, later, here, space, begins⟩ := numbered
  rw [← List.append_assoc] at here
  rcases List.append_eq_append_iff.mp here with ⟨middle, longer, tail⟩ | ⟨middle, longer, tail⟩
  · cases middle with
    | nil =>
      obtain ⟨rfl, rfl⟩ := List.cons.inj tail
      refine Or.inl ⟨?_, begins⟩
      rw [List.append_nil] at longer
      rw [← longer, List.getLast?_append]
      rfl
    | cons first middle =>
      obtain ⟨rfl, rfl⟩ := List.cons.inj tail
      rcases List.append_eq_append_iff.mp longer with ⟨between, short, whole⟩ | ⟨between, rfl, whole⟩
      · have inside : ' ' ∈ "signal".toList := whole ▸ List.mem_append_right between List.mem_cons_self
        exact absurd inside (by decide)
      · cases between with
        | nil => exact absurd (List.cons.inj whole).1 (by decide)
        | cons first between =>
          obtain ⟨rfl, rfl⟩ := List.cons.inj whole
          exact Or.inr ⟨between, blank, later, List.append_assoc .., space, begins⟩
  · cases middle with
    | nil =>
      obtain ⟨rfl, rfl⟩ := List.cons.inj tail
      refine Or.inl ⟨?_, begins⟩
      rw [longer, List.append_nil, List.getLast?_append]
      rfl
    | cons first middle =>
      obtain ⟨rfl, _⟩ := List.cons.inj tail
      have solidBlank := solid blank (longer ▸ List.mem_append_right _ List.mem_cons_self)
      rw [space] at solidBlank
      cases solidBlank

theorem not_numbered_word {word : Text} (solid : ∀ character ∈ word, isSpace character = false) : ¬ Numbered word := by
  intro ⟨front, blank, rest, here, space, _⟩
  have inside : blank ∈ word := by
    rw [here]
    simp
  rw [solid blank inside] at space
  cases space

end Signal

section Printing

def headerFront (tombstone : ParsedTombstone) : Text :=
  "pid: ".toList ++ decimal tombstone.pid ++ ", tid: ".toList ++ decimal tombstone.crashingTid ++ ", name: ".toList

def headerLine (tombstone : ParsedTombstone) : Text := headerFront tombstone ++ bracketed tombstone.processName

theorem forall_mem_decimal (holds : Char → Prop) (sign : holds '-') (digits : ∀ digit < 10, holds (Nat.digitChar digit))
    (value : Int) : ∀ character ∈ decimal value, holds character := by
  have padding : 0 - (if value < 0 then ['-'] else []).length - (Nat.toDigits 10 value.natAbs).length = 0 := by omega
  rw [decimal, formatInt, padding]
  simp only [List.replicate_zero, List.append_nil, List.forall_mem_append]
  refine ⟨?_, forall_mem_toDigits (by decide) digits _⟩
  split
  next => exact List.forall_mem_singleton.mpr sign
  next => exact List.forall_mem_nil _

theorem plain_headerFront (tombstone : ParsedTombstone) : '>' ∉ headerFront tombstone := by
  have number (value : Int) : '>' ∉ decimal value := by
    have digits : ∀ digit < 10, Nat.digitChar digit ≠ '>' := by decide
    have apart := forall_mem_decimal (· ≠ '>') (by decide) digits value
    exact fun member => apart '>' member rfl
  have first : '>' ∉ "pid: ".toList := by decide
  have second : '>' ∉ ", tid: ".toList := by decide
  have third : '>' ∉ ", name: ".toList := by decide
  exact List.not_mem_append (List.not_mem_append (List.not_mem_append (List.not_mem_append first (number _)) second) (number _)) third

variable {tombstone : ParsedTombstone}

theorem numbered_past {word rest : Text} (solid : ∀ character ∈ word, isSpace character = false)
    (quiet : word.getLast? ≠ some 'l' ∨ (rest.dropWhile isSpace).head?.any isDecimal = false)
    (numbered : Numbered (word ++ ' ' :: rest)) : Numbered rest := by
  rcases numbered_after_word solid numbered with ⟨ends, begins⟩ | later
  · rcases quiet with other | nothing
    · exact absurd ends other
    · rw [nothing] at begins
      cases begins
  · exact later

theorem header_words (pid tid name : Text) :
    "pid: ".toList ++ pid ++ ", tid: ".toList ++ tid ++ ", name: ".toList ++ bracketed name =
      "pid:".toList ++ ' ' :: ((pid ++ [',']) ++ ' ' :: ("tid:".toList ++ ' ' :: ((tid ++ [',']) ++ ' ' ::
        ("name:".toList ++ ' ' :: (name ++ ' ' :: ([] ++ ' ' :: (">>>".toList ++ ' ' :: (name ++ ' ' :: "<<<".toList)))))))) := by
  have first : "pid: ".toList = "pid:".toList ++ [' '] := rfl
  have second : ", tid: ".toList = [','] ++ (' ' :: ("tid:".toList ++ [' '])) := rfl
  have third : ", name: ".toList = [','] ++ (' ' :: ("name:".toList ++ [' '])) := rfl
  have blanks : "  ".toList = [' ', ' '] := rfl
  simp only [bracketed, brackets, first, second, third, blanks, List.append_assoc, List.cons_append, List.nil_append]

theorem unnumbered_header (header : PlainHeader tombstone) : ¬ Numbered (headerLine tombstone) := by
  have number (value : Int) : ∀ character ∈ decimal value ++ [','], isSpace character = false := by
    have digits : ∀ digit < 10, isSpace (Nat.digitChar digit) = false := by decide
    have solid := forall_mem_decimal (isSpace · = false) rfl digits value
    exact List.forall_mem_append.mpr ⟨solid, List.forall_mem_singleton.mpr rfl⟩
  have comma (value : Int) : (decimal value ++ [',']).getLast? ≠ some 'l' := by
    rw [List.getLast?_concat]
    decide
  have words : headerLine tombstone = _ := header_words (decimal tombstone.pid) (decimal tombstone.crashingTid) tombstone.processName
  rw [words]
  intro numbered
  have fromPid := numbered_past (solid_of_all rfl) (Or.inl (by decide)) numbered
  have fromTid := numbered_past (number _) (Or.inl (comma _)) fromPid
  have fromCrashing := numbered_past (solid_of_all rfl) (Or.inl (by decide)) fromTid
  have fromName := numbered_past (number _) (Or.inl (comma _)) fromCrashing
  have fromProcess := numbered_past (solid_of_all rfl) (Or.inl (by decide)) fromName
  have fromBlank := numbered_past header.solid (Or.inr rfl) fromProcess
  have fromBrackets := numbered_past (List.forall_mem_nil _) (Or.inr rfl) fromBlank
  have fromSecond := numbered_past (solid_of_all rfl) (Or.inl (by decide)) fromBrackets
  have fromLast := numbered_past header.solid (Or.inr rfl) fromSecond
  exact not_numbered_word (solid_of_all rfl) fromLast

def signalFront (tombstone : ParsedTombstone) : Text :=
  "signal".toList ++ (" ".toList ++ (decimal tombstone.signalNumber ++ (" ".toList ++ ("(".toList ++ (signalName tombstone ++ ")".toList)))))

theorem signal_words (number name rest : Text) :
    "signal ".toList ++ number ++ " (".toList ++ name ++ (")".toList ++ rest) =
      "signal".toList ++ (" ".toList ++ (number ++ (" ".toList ++ ("(".toList ++ (name ++ ")".toList))))) ++ rest := by
  have signal : "signal ".toList = "signal".toList ++ " ".toList := rfl
  have opening : " (".toList = " ".toList ++ "(".toList := rfl
  simp only [signal, opening, List.append_assoc]

theorem signalRow_front (tombstone : ParsedTombstone) : ∃ rest, signalRow tombstone = signalFront tombstone ++ rest := by
  have front (rest : Text) : _ = signalFront tombstone ++ rest :=
    signal_words (decimal tombstone.signalNumber) (signalName tombstone) rest
  have code : "), code ".toList = ")".toList ++ ", code ".toList := rfl
  have fault : "), fault addr ".toList = ")".toList ++ ", fault addr ".toList := rfl
  simp only [← front, signalRow, signalName]
  cases find " / ".toList tombstone.signalInfo with
  | some slash =>
    refine ⟨", code ".toList ++ (decimal tombstone.signalCode ++ (" (".toList ++
      (tombstone.signalInfo.drop (slash + 3) ++ ("), fault addr ".toList ++ (hex 0 tombstone.faultAddr ++ ['\n']))))), ?_⟩
    simp only [code, List.append_assoc]
  | none =>
    refine ⟨", fault addr ".toList ++ (hex 0 tombstone.faultAddr ++ ['\n']), ?_⟩
    simp only [fault, List.append_assoc]

theorem decimal_unsigned {value : Int} (unsigned : 0 ≤ value) : decimal value = Nat.toDigits 10 value.natAbs := by
  have padding : 0 - (if value < 0 then ['-'] else []).length - (Nat.toDigits 10 value.natAbs).length = 0 := by omega
  rw [decimal, formatInt, padding, if_neg (Int.not_lt.mpr unsigned)]
  rfl

theorem signal_search (header : PlainHeader tombstone) (unsigned : 0 ≤ tombstone.signalNumber) (rest : Text) :
    signalPattern.search (signalFront tombstone ++ rest) = some [signalName tombstone] := by
  have digits : ∀ character ∈ decimal tombstone.signalNumber, isDecimal character = true := by
    have each : ∀ digit < 10, isDecimal (Nat.digitChar digit) = true := by decide
    rw [decimal_unsigned unsigned]
    exact forall_mem_toDigits (by decide) each _
  have some_digit : 1 ≤ (decimal tombstone.signalNumber).length := by
    rw [decimal_unsigned unsigned]
    exact Nat.length_toDigits_pos
  have named : ∀ character ∈ signalName tombstone, decide (character ≠ ')') = true := by
    intro character member
    exact decide_eq_true fun closes => header.unclosed (closes ▸ member)
  obtain ⟨digit, others, split⟩ := List.exists_cons_of_length_pos some_digit
  have digitFirst (later : Text) : (decimal tombstone.signalNumber ++ later).head?.all fun character => !isSpace character := by
    have solid := not_space_of_decimal (digits digit (split ▸ List.mem_cons_self))
    rw [split]
    simp [solid]
  have blank : ∀ character ∈ [' '], isSpace character = true := List.all_eq_true.mp rfl
  have space : (([' '] ++ ('(' :: (signalName tombstone ++ (')' :: rest)))).head?.all fun character => !isDecimal character) = true := by
    have apart : isDecimal ' ' = false := by decide
    exact congrArg (!·) apart
  have closes : ((')' :: rest).head?.all fun character => !decide (character ≠ ')')) = true := rfl
  have opens : (('(' :: (signalName tombstone ++ ')' :: rest)).head?.all fun character => !isSpace character) = true := rfl
  have found : ∃ last, First signalPattern ⟨0, "signal".toList ++ ([' '] ++ (decimal tombstone.signalNumber ++
      ([' '] ++ ('(' :: (signalName tombstone ++ (')' :: rest)))))), []⟩ last ∧ last.groups = [signalName tombstone] :=
    ⟨_, First.literal <|
      .seq (first_many [' '] blank (Nat.le_refl _) (digitFirst _) _ _) <|
      .seq (first_many _ digits some_digit space _ _) <|
      .seq (first_many [' '] blank (Nat.le_refl _) opens _ _) <|
      .seq (first_one (decide_eq_true rfl) _ _) <|
      .seq (First.group (first_many _ named (List.length_pos_iff.mpr header.signaled) closes _ _)) (first_one (decide_eq_true rfl) _ _),
      rfl⟩
  obtain ⟨last, first, groups⟩ := found
  have whole (number name : Text) :
      "signal".toList ++ (" ".toList ++ (number ++ (" ".toList ++ ("(".toList ++ (name ++ ")".toList))))) ++ rest =
        "signal".toList ++ ([' '] ++ (number ++ ([' '] ++ ('(' :: (name ++ (')' :: rest)))))) := by
    simp only [List.append_assoc]
    rfl
  have line : signalFront tombstone ++ rest = _ := whole (decimal tombstone.signalNumber) (signalName tombstone)
  rw [line, search_of_head first, groups]

/-- The first line of the signal's row. -/
theorem signal_first (header : PlainHeader tombstone) (unsigned : 0 ≤ tombstone.signalNumber) :
    ∃ line, splitlines (signalRow tombstone) = line :: (splitlines (signalRow tombstone)).tail ∧
      signalPattern.search line = some [signalName tombstone] := by
  obtain ⟨rest, row⟩ := signalRow_front tombstone
  have unbroken : Unbroken (signalFront tombstone) := by
    refine List.forall_mem_append.mpr ⟨unbroken_literal rfl, List.forall_mem_append.mpr ⟨unbroken_literal rfl, ?_⟩⟩
    refine List.forall_mem_append.mpr ⟨unbroken_decimal _, List.forall_mem_append.mpr ⟨unbroken_literal rfl, ?_⟩⟩
    refine List.forall_mem_append.mpr ⟨unbroken_literal rfl, List.forall_mem_append.mpr ⟨header.unbroken, unbroken_literal rfl⟩⟩
  have nonempty : signalFront tombstone ≠ [] := List.append_ne_nil_of_left_ne_nil (by decide) _
  obtain ⟨line, lines⟩ := splitlines_prefix nonempty unbroken rest
  rw [row]
  exact ⟨_, lines, signal_search header unsigned line⟩

variable {printed : Printed}

theorem header_row (front name : Text) :
    front ++ name ++ "  >>> ".toList ++ name ++ " <<<".toList ++ ['\n'] = front ++ bracketed name ++ ['\n'] := by
  have opening : "  >>> ".toList = "  ".toList ++ (">>>".toList ++ [' ']) := rfl
  have closing : " <<<".toList = [' '] ++ "<<<".toList := rfl
  simp only [bracketed, brackets, opening, closing, List.append_assoc]

theorem rows_begin (printed : Printed) : ∃ others,
    rows printed.tombstone printed.symbols printed.showTrust =
      (sep ++ ['\n']) :: (headerLine printed.tombstone ++ ['\n']) :: signalRow printed.tombstone :: others := by
  have begun : ∃ others, rows printed.tombstone printed.symbols printed.showTrust = (sep ++ ['\n']) ::
      (headerFront printed.tombstone ++ printed.tombstone.processName ++ "  >>> ".toList ++ printed.tombstone.processName ++
        " <<<".toList ++ ['\n']) :: signalRow printed.tombstone :: others := ⟨_, rfl⟩
  rwa [header_row] at begun

theorem lines_report (header : PlainHeader printed.tombstone) :
    splitlines printed.report = sep :: headerLine printed.tombstone :: laterLines printed := by
  obtain ⟨others, begun⟩ := rows_begin printed
  have unbroken : Unbroken (headerLine printed.tombstone) := by
    have name : Unbroken printed.tombstone.processName := by
      intro character member breaks
      have space := isSpace_of_isLineBreak breaks
      rw [header.solid character member] at space
      cases space
    refine List.forall_mem_append.mpr ⟨?_, ?_⟩
    · refine List.forall_mem_append.mpr ⟨List.forall_mem_append.mpr ⟨List.forall_mem_append.mpr ⟨?_, ?_⟩, ?_⟩, ?_⟩
      · exact List.forall_mem_append.mpr ⟨unbroken_literal rfl, unbroken_decimal _⟩
      · exact unbroken_literal rfl
      · exact unbroken_decimal _
      · exact unbroken_literal rfl
    · refine List.forall_mem_append.mpr ⟨name, List.forall_mem_append.mpr ⟨unbroken_literal rfl, ?_⟩⟩
      refine List.forall_mem_append.mpr ⟨unbroken_literal rfl, List.forall_mem_append.mpr ⟨unbroken_literal rfl, ?_⟩⟩
      exact List.forall_mem_append.mpr ⟨name, unbroken_literal rfl⟩
  rw [Printed.report, formatSymbolicated, splitlines_flatten fun row member => (shaped_rows printed row member).ended,
    laterLines, begun, List.flatMap_cons, List.flatMap_cons, splitlines_line unbroken]
  rfl

theorem later_begin (header : PlainHeader printed.tombstone) (unsigned : 0 ≤ printed.tombstone.signalNumber) :
    ∃ line, laterLines printed = line :: (laterLines printed).tail ∧
      signalPattern.search line = some [signalName printed.tombstone] := by
  obtain ⟨others, begun⟩ := rows_begin printed
  obtain ⟨line, lines, found⟩ := signal_first header unsigned
  refine ⟨line, ?_, found⟩
  rw [laterLines, begun, List.drop_succ_cons, List.drop_succ_cons, List.drop_zero, List.flatMap_cons, lines]
  rfl

end Printing

section Results

variable {printed : Printed}

theorem process_kept_iff (header : PlainHeader printed.tombstone) :
    (extractMeta printed.report).1 = printed.tombstone.processName ↔ ProcessKept printed := by
  have gives : processPattern.search (headerLine printed.tombstone) = some [printed.tombstone.processName] ↔
      ¬ Bracketing printed.tombstone.processName :=
    header_gives_iff header.solid header.named (plain_headerFront printed.tombstone)
  have occurs : processPattern.search (headerLine printed.tombstone) ≠ none := by
    rw [Ne, search_eq_none capturing_process.floating, not_not]
    refine ⟨headerFront printed.tombstone ++ (printed.tombstone.processName ++ "  ".toList),
      brackets [' '] printed.tombstone.processName [' '], [], [printed.tombstone.processName], ?_, ?_⟩
    · simp only [headerLine, bracketed, List.append_assoc, List.append_nil]
    · exact reads_process.mpr ⟨_, _, _, rfl, rfl, List.all_eq_true.mp rfl, header.named, header.solid, List.all_eq_true.mp rfl⟩
  obtain ⟨groups, found⟩ := Option.ne_none_iff_exists'.mp occurs
  obtain ⟨name, rfl⟩ := capturing_process.of_search found
  have shown : captured processPattern (headerLine printed.tombstone) = some name := by
    rw [captured, found]
    rfl
  have same : name = printed.tombstone.processName ↔ ¬ Bracketing printed.tombstone.processName := by
    rw [← gives, found]
    simp
  rw [extractMeta_eq, lines_report header, ProcessKept, ← same, ← lastTaken_getD capturing_process]
  dsimp only
  rw [lastTaken_cons, lastTaken_cons, shown]
  cases lastTaken processPattern (laterLines printed) <;> rfl

theorem signal_kept_iff (header : PlainHeader printed.tombstone) :
    (extractMeta printed.report).2 = signalName printed.tombstone ↔ SignalKept printed := by
  have unmarked (line : Text) (quiet : ¬ Numbered line) : captured signalPattern line = none := by
    rw [captured, Option.map_eq_none_iff, search_eq_none capturing_signal.floating]
    exact fun occurs => quiet (numbered_of_occurs occurs)
  have sepQuiet : captured signalPattern sep = none := by decide +kernel
  rw [extractMeta_eq, lines_report header, SignalKept]
  dsimp only
  rw [lastTaken_cons, lastTaken_cons, sepQuiet, unmarked _ (unnumbered_header header), Option.or_none, Option.or_none]
  split
  next unsigned =>
    obtain ⟨line, lines, found⟩ := later_begin header unsigned
    have shown : captured signalPattern line = some (signalName printed.tombstone) := by
      rw [captured, found]
      rfl
    rw [lines, List.tail_cons, lastTaken_cons, shown]
    have kept : (lastTaken signalPattern (laterLines printed).tail).getD (signalName printed.tombstone) =
        signalName printed.tombstone ↔ _ := lastTaken_getD capturing_signal _ _
    rw [eq_self_iff_true, and_true] at kept
    rw [← kept]
    cases lastTaken signalPattern (laterLines printed).tail <;> rfl
  next => rw [lastTaken_getD capturing_signal, eq_comm (a := "unknown".toList)]

end Results

theorem header_kept_iff (printed : Printed) (header : PlainHeader printed.tombstone) :
    extractMeta printed.report = (printed.tombstone.processName, signalName printed.tombstone) ↔
      ProcessKept printed ∧ SignalKept printed := by
  rw [Prod.ext_iff, process_kept_iff header, signal_kept_iff header]

theorem plain_segfault : PlainHeader segfault.tombstone := by
  have name : signalName segfault.tombstone = "SIGSEGV".toList := by decide +kernel
  refine ⟨by decide, solid_of_all rfl, ?_, ?_, ?_⟩
  · rw [name]
    decide
  · rw [name]
    decide
  · rw [name]
    exact unbroken_literal rfl

theorem absent_of_unfound {pattern : Pattern} (floating : pattern.Floating) {lines : List Text}
    (unfound : lines.all fun line => (pattern.search line).isNone) : Absent pattern lines := by
  intro line member
  rw [← search_eq_none floating]
  exact Option.isNone_iff_eq_none.mp (List.all_eq_true.mp unfound line member)

theorem segfault_header_kept : extractMeta segfault.report = ("svc".toList, "SIGSEGV".toList) := by
  have name : signalName segfault.tombstone = "SIGSEGV".toList := by decide +kernel
  rw [← name]
  refine (header_kept_iff segfault plain_segfault).mpr ⟨Or.inr ⟨?_, ?_⟩, ?_⟩
  · exact absent_of_unfound capturing_process.floating (by decide +kernel)
  · rintro (occurs | ⟨suffix, _⟩)
    · exact (search_eq_none capturing_process.floating).mp (by decide +kernel) occurs
    · exact absurd suffix (by decide)
  · rw [SignalKept, if_pos (by decide)]
    exact Or.inr (absent_of_unfound capturing_signal.floating (by decide +kernel))

def forged : Printed :=
  { segfault with tombstone := { segfault.tombstone with abortMessage := ">>> init <<< signal 9 (SIGKILL)".toList } }

theorem plain_forged : PlainHeader forged.tombstone :=
  ⟨plain_segfault.named, plain_segfault.solid, plain_segfault.signaled, plain_segfault.unclosed, plain_segfault.unbroken⟩

theorem quoted_header_wins : ¬ ∀ printed : Printed, PlainHeader printed.tombstone →
    extractMeta printed.report = (printed.tombstone.processName, signalName printed.tombstone) := by
  have scraped : extractMeta forged.report = ("init".toList, "SIGKILL".toList) := by decide +kernel
  intro kept
  have same := congrArg Prod.fst (scraped.symm.trans (kept forged plain_forged))
  exact absurd same (by decide)

end Crashomon.Proofs.ReportMeta
