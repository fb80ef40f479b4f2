import Crashomon.Base.Text

/-! Backtracking regular expressions over single characters and runs of them.
A pattern's successes come in order of preference, and a search takes the first. -/

namespace Crashomon.Regex

/-- A position in the text and the groups that end before it. -/
structure Cursor where
  position : Nat
  rest : Text
  groups : List Text
  deriving DecidableEq, Repr

def Cursor.advance (cursor : Cursor) (count : Nat) : Cursor :=
  { cursor with position := cursor.position + count, rest := cursor.rest.drop count }

inductive Pattern where
  | start
  | one (accepts : Char → Bool)
  | many (accepts : Char → Bool) (least : Nat)
  | seq (first second : Pattern)
  | group (body : Pattern)

namespace Pattern

/-- The characters of a text, then the pattern. -/
def literal : Text → Pattern → Pattern
  | [], next => next
  | character :: rest, next => .seq (.one (· = character)) (literal rest next)

/-- Where a match from the cursor on can end. A run prefers to be long. -/
def successes : Pattern → Cursor → List Cursor
  | start, cursor => if cursor.position = 0 then [cursor] else []
  | one accepts, cursor => if cursor.rest.head?.any accepts then [cursor.advance 1] else []
  | many accepts least, cursor =>
    ((List.range ((cursor.rest.takeWhile accepts).length + 1)).reverse.filter (least ≤ ·)).map cursor.advance
  | seq first second, cursor => (first.successes cursor).flatMap second.successes
  | group body, cursor => (body.successes cursor).map fun last =>
    { last with groups := last.groups ++ [cursor.rest.take (last.position - cursor.position)] }

/-- The groups of the first match, from the leftmost position that has one. -/
def search (pattern : Pattern) (text : Text) : Option (List Text) :=
  ((List.range (text.length + 1)).findSome? fun position =>
    (pattern.successes ⟨position, text.drop position, []⟩).head?).map (·.groups)

attribute [local simp] successes

theorem seq_failed {first second : Pattern} {cursor : Cursor} (failed : first.successes cursor = []) :
    (seq first second).successes cursor = [] := by
  rw [successes, failed, List.flatMap_nil]

theorem search_anchored {pattern : Pattern} {text : Text} (failed : pattern.successes ⟨0, text, []⟩ = []) :
    (seq start pattern).search text = none := by
  unfold search
  rw [Option.map_eq_none_iff, List.findSome?_eq_none_iff]
  intro position _
  cases position with
  | zero => simp [successes, failed]
  | succ position => rw [seq_failed rfl, List.head?_nil]

theorem many_refused {accepts : Char → Bool} {least : Nat} {cursor : Cursor} (some_needed : 0 < least)
    (refused : cursor.rest.head?.all fun character => !accepts character) :
    (many accepts least).successes cursor = [] := by
  have nothing : cursor.rest.takeWhile accepts = [] := by
    cases seen : cursor.rest with
    | nil => rfl
    | cons character rest =>
      rw [seen] at refused
      exact List.takeWhile_cons_of_neg (by simpa using refused)
  rw [successes, nothing]
  simp [List.range_succ, some_needed]

/-- After a run, another nonempty one fails unless it accepts some character
that the first run can stop before. -/
theorem many_then_many_refused {accepts others : Char → Bool} {least more : Nat} {later : Pattern} {cursor : Cursor}
    (some_needed : 0 < more)
    (refused : ∀ count, least ≤ count → count ≤ (cursor.rest.takeWhile accepts).length →
      (cursor.rest.drop count).head?.all fun character => !others character) :
    (seq (many accepts least) (seq (many others more) later)).successes cursor = [] := by
  rw [successes, List.flatMap_eq_nil_iff]
  intro stop reached
  rw [successes, List.mem_map] at reached
  obtain ⟨count, within, rfl⟩ := reached
  rw [List.mem_filter, List.mem_reverse, List.mem_range, decide_eq_true_eq] at within
  exact seq_failed (many_refused some_needed (refused count within.2 (Nat.le_of_lt_succ within.1)))

theorem advance_advance (cursor : Cursor) (first second : Nat) :
    (cursor.advance first).advance second = cursor.advance (first + second) := by
  simp only [Cursor.advance, List.drop_drop, Nat.add_assoc]

theorem mem_seq {first second : Pattern} {cursor last : Cursor} :
    last ∈ (seq first second).successes cursor ↔ ∃ middle ∈ first.successes cursor, last ∈ second.successes middle :=
  List.mem_flatMap

theorem mem_one {accepts : Char → Bool} {cursor last : Cursor} (reached : last ∈ (one accepts).successes cursor) :
    ∃ character, accepts character = true ∧ cursor.rest = character :: last.rest ∧ last = cursor.advance 1 := by
  rw [successes] at reached
  split at reached
  next accepted =>
    rw [List.mem_singleton.mp reached]
    cases seen : cursor.rest with
    | nil => simp [seen] at accepted
    | cons character rest => exact ⟨character, by simpa [seen] using accepted, by simp [Cursor.advance, seen], rfl⟩
  next => cases reached

theorem mem_many {accepts : Char → Bool} {least : Nat} {cursor last : Cursor}
    (reached : last ∈ (many accepts least).successes cursor) :
    ∃ run : Text, least ≤ run.length ∧ (∀ character ∈ run, accepts character = true) ∧ cursor.rest = run ++ last.rest ∧
      last = cursor.advance run.length := by
  rw [successes, List.mem_map] at reached
  obtain ⟨count, within, rfl⟩ := reached
  rw [List.mem_filter, List.mem_reverse, List.mem_range, decide_eq_true_eq] at within
  obtain ⟨short, enough⟩ := within
  have length : (cursor.rest.take count).length = count := by
    have bound := (List.takeWhile_prefix accepts (l := cursor.rest)).length_le
    rw [List.length_take]
    omega
  refine ⟨cursor.rest.take count, by rw [length]; exact enough, ?_, (List.take_append_drop count cursor.rest).symm, by rw [length]⟩
  intro character member
  have inside : character ∈ cursor.rest.takeWhile accepts := by
    have part : cursor.rest.take count = (cursor.rest.takeWhile accepts).take count := by
      have whole := List.takeWhile_append_dropWhile (p := accepts) (l := cursor.rest)
      conv_lhs => rw [← whole]
      rw [List.take_append_of_le_length (by omega)]
    rw [part] at member
    exact List.mem_of_mem_take member
  exact List.all_eq_true.mp List.all_takeWhile character inside

theorem mem_group {body : Pattern} {cursor last : Cursor} (reached : last ∈ (group body).successes cursor) :
    ∃ inner ∈ body.successes cursor, last.position = inner.position ∧ last.rest = inner.rest ∧
      last.groups = inner.groups ++ [cursor.rest.take (inner.position - cursor.position)] := by
  rw [successes, List.mem_map] at reached
  obtain ⟨inner, member, rfl⟩ := reached
  exact ⟨inner, member, rfl, rfl, rfl⟩

theorem takeWhile_run {accepts : Char → Bool} {run rest : Text} (accepted : ∀ character ∈ run, accepts character = true)
    (stops : rest.head?.all fun character => !accepts character) : (run ++ rest).takeWhile accepts = run := by
  have nothing : rest.takeWhile accepts = [] := by
    cases rest with
    | nil => rfl
    | cons character rest => exact List.takeWhile_cons_of_neg (by simpa using stops)
  rw [List.takeWhile_append_of_pos accepted, nothing, List.append_nil]

/-- Where only the longest run can go on, it is the one that counts. -/
theorem flatMap_longest {accepts : Char → Bool} {least : Nat} {run rest : Text} {cursor : Cursor} {goOn : Cursor → List β}
    (here : cursor.rest = run ++ rest) (accepted : ∀ character ∈ run, accepts character = true)
    (stops : rest.head?.all fun character => !accepts character) (enough : least ≤ run.length)
    (shorter : ∀ count, count < run.length → goOn (cursor.advance count) = []) :
    ((many accepts least).successes cursor).flatMap goOn = goOn (cursor.advance run.length) := by
  rw [successes, here, takeWhile_run accepted stops, List.range_succ, List.reverse_concat, List.filter_cons_of_pos (by simpa using enough), List.map_cons,
    List.flatMap_cons]
  have others : (((List.range run.length).reverse.filter (least ≤ ·)).map cursor.advance).flatMap goOn = [] := by
    apply List.flatMap_eq_nil_iff.mpr
    intro next member
    obtain ⟨count, within, rfl⟩ := List.mem_map.mp member
    exact shorter count (List.mem_range.mp (List.mem_reverse.mp (List.mem_filter.mp within).1))
  rw [others, List.append_nil]

theorem mem_literal {word : Text} {next : Pattern} {cursor last : Cursor}
    (reached : last ∈ (literal word next).successes cursor) :
    ∃ middle, last ∈ next.successes middle ∧ cursor.rest = word ++ middle.rest ∧ middle.groups = cursor.groups := by
  induction word generalizing cursor with
  | nil => exact ⟨cursor, reached, rfl, rfl⟩
  | cons character word ih =>
    obtain ⟨stepped, first, later⟩ := mem_seq.mp reached
    obtain ⟨found, same, rest, advanced⟩ := mem_one first
    obtain ⟨middle, reaches, follows, groups⟩ := ih later
    refine ⟨middle, reaches, ?_, ?_⟩
    · rw [rest, follows, of_decide_eq_true same]
      rfl
    · rw [groups, advanced]
      rfl

theorem literal_successes {word rest : Text} {next : Pattern} {cursor : Cursor} (here : cursor.rest = word ++ rest) :
    (literal word next).successes cursor = next.successes (cursor.advance word.length) := by
  induction word generalizing cursor with
  | nil => rfl
  | cons character word ih =>
    rw [literal, successes, successes, if_pos (by simp [here]), List.flatMap_singleton,
      ih (by simp [Cursor.advance, here]), advance_advance, List.length_cons, Nat.add_comm]

/-- A match of the whole search is one of the successes somewhere. -/
theorem search_reaches {pattern : Pattern} {text : Text} {groups : List Text} (found : pattern.search text = some groups) :
    ∃ position, ∃ last ∈ pattern.successes ⟨position, text.drop position, []⟩, last.groups = groups := by
  obtain ⟨last, first, same⟩ := Option.map_eq_some_iff.mp found
  obtain ⟨position, _, reached⟩ := List.exists_of_findSome?_eq_some first
  exact ⟨position, last, List.mem_of_mem_head? reached, same⟩

theorem search_of_head {pattern : Pattern} {text : Text} {last : Cursor}
    (first : (pattern.successes ⟨0, text, []⟩).head? = some last) : pattern.search text = some last.groups := by
  unfold search
  rw [List.range_succ_eq_map, List.findSome?_cons, List.drop_zero, first]
  rfl

section Language

/-- The texts that a pattern without `start` can read, with the groups it takes from them. -/
def Reads : Pattern → Text → List Text → Prop
  | start, _, _ => False
  | one accepts, text, groups => (∃ character, accepts character = true ∧ text = [character]) ∧ groups = []
  | many accepts least, text, groups =>
    (least ≤ text.length ∧ ∀ character ∈ text, accepts character = true) ∧ groups = []
  | seq first second, text, groups => ∃ front back taken others, text = front ++ back ∧ groups = taken ++ others ∧
      first.Reads front taken ∧ second.Reads back others
  | group body, text, groups => ∃ inner, groups = inner ++ [text] ∧ body.Reads text inner

/-- No part of the pattern asks for the start of the text. -/
def Floating : Pattern → Prop
  | start => False
  | one _ | many _ _ => True
  | seq first second => first.Floating ∧ second.Floating
  | group body => body.Floating

def Occurs (pattern : Pattern) (text : Text) : Prop :=
  ∃ front middle back groups, text = front ++ (middle ++ back) ∧ pattern.Reads middle groups

theorem reads_literal {word text : Text} {next : Pattern} {groups : List Text}
    (reads : (literal word next).Reads text groups) : ∃ rest, text = word ++ rest ∧ next.Reads rest groups := by
  induction word generalizing text groups with
  | nil => exact ⟨text, rfl, reads⟩
  | cons character word ih =>
    obtain ⟨front, back, taken, others, rfl, rfl, ⟨⟨found, same, rfl⟩, rfl⟩, readsMore⟩ := reads
    obtain ⟨rest, rfl, later⟩ := ih readsMore
    refine ⟨rest, ?_, later⟩
    rw [of_decide_eq_true same]
    rfl

theorem floating_literal {word : Text} {next : Pattern} (floating : next.Floating) : (literal word next).Floating := by
  induction word with
  | nil => exact floating
  | cons character word ih => exact ⟨trivial, ih⟩

theorem reads_of_mem {pattern : Pattern} (floating : pattern.Floating) {cursor last : Cursor}
    (reached : last ∈ pattern.successes cursor) :
    ∃ text groups, pattern.Reads text groups ∧ cursor.rest = text ++ last.rest ∧
      last.position = cursor.position + text.length ∧ last.groups = cursor.groups ++ groups := by
  induction pattern generalizing cursor last with
  | start => exact floating.elim
  | one accepts =>
    obtain ⟨character, accepted, here, advanced⟩ := mem_one reached
    refine ⟨[character], [], ⟨⟨character, accepted, rfl⟩, rfl⟩, here, ?_, ?_⟩
    · rw [advanced]
      rfl
    · rw [advanced, List.append_nil]
      rfl
  | many accepts least =>
    obtain ⟨run, enough, accepted, here, advanced⟩ := mem_many reached
    refine ⟨run, [], ⟨⟨enough, accepted⟩, rfl⟩, here, ?_, ?_⟩
    · rw [advanced]
      rfl
    · rw [advanced, List.append_nil]
      rfl
  | seq first second firstReads secondReads =>
    obtain ⟨middle, begun, ended⟩ := mem_seq.mp reached
    obtain ⟨front, taken, reads, here, position, groups⟩ := firstReads floating.1 begun
    obtain ⟨back, others, readsMore, there, later, more⟩ := secondReads floating.2 ended
    refine ⟨front ++ back, taken ++ others, ⟨front, back, taken, others, rfl, rfl, reads, readsMore⟩, ?_, ?_, ?_⟩
    · rw [here, there, List.append_assoc]
    · rw [later, position, List.length_append, Nat.add_assoc]
    · rw [more, groups, List.append_assoc]
  | group body bodyReads =>
    obtain ⟨inner, begun, position, rest, groups⟩ := mem_group reached
    obtain ⟨text, taken, reads, here, place, more⟩ := bodyReads floating begun
    refine ⟨text, taken ++ [text], ⟨taken, rfl, reads⟩, ?_, ?_, ?_⟩
    · rw [rest]
      exact here
    · rw [position, place]
    · rw [groups, more, place, Nat.add_sub_cancel_left, here, List.take_left, List.append_assoc]

theorem mem_of_reads {pattern : Pattern} {text rest : Text} {taken : List Text} (reads : pattern.Reads text taken)
    (position : Nat) (groups : List Text) :
    ⟨position + text.length, rest, groups ++ taken⟩ ∈ pattern.successes ⟨position, text ++ rest, groups⟩ := by
  induction pattern generalizing text rest taken position groups with
  | start => exact reads.elim
  | one accepts =>
    obtain ⟨⟨character, accepted, rfl⟩, rfl⟩ := reads
    simp [successes, accepted, Cursor.advance]
  | many accepts least =>
    obtain ⟨⟨enough, accepted⟩, rfl⟩ := reads
    rw [successes, List.mem_map]
    refine ⟨text.length, ?_, ?_⟩
    · rw [List.mem_filter, List.mem_reverse, List.mem_range, decide_eq_true_eq]
      refine ⟨Nat.lt_succ_of_le ?_, enough⟩
      rw [List.takeWhile_append_of_pos accepted, List.length_append]
      exact Nat.le_add_right _ _
    · rw [Cursor.advance, List.drop_left, List.append_nil]
  | seq first second firstMem secondMem =>
    obtain ⟨front, back, some, others, rfl, rfl, reads, readsMore⟩ := reads
    rw [mem_seq]
    refine ⟨⟨position + front.length, back ++ rest, groups ++ some⟩, ?_, ?_⟩
    · rw [List.append_assoc]
      exact firstMem reads position groups
    · rw [List.length_append, ← Nat.add_assoc, ← List.append_assoc]
      exact secondMem readsMore _ _
  | group body bodyMem =>
    obtain ⟨inner, rfl, reads⟩ := reads
    rw [successes, List.mem_map]
    refine ⟨_, bodyMem reads position groups, ?_⟩
    rw [Nat.add_sub_cancel_left, List.take_left, List.append_assoc]

/-- The first match, from the leftmost position that has one. -/
theorem search_eq_some {pattern : Pattern} {text : Text} {groups : List Text} :
    pattern.search text = some groups ↔ ∃ position ≤ text.length, ∃ last,
      (pattern.successes ⟨position, text.drop position, []⟩).head? = some last ∧ last.groups = groups ∧
        ∀ earlier < position, pattern.successes ⟨earlier, text.drop earlier, []⟩ = [] := by
  rw [search, Option.map_eq_some_iff]
  constructor
  · intro ⟨last, first, same⟩
    obtain ⟨before, position, after, split, found, nothing⟩ := List.findSome?_eq_some_iff.mp first
    have inside : before.length < text.length + 1 := by
      have size := congrArg List.length split
      rw [List.length_range, List.length_append, List.length_cons] at size
      omega
    have here : position = before.length := by
      have seen := congrArg (·[before.length]?) split
      rw [List.getElem?_range inside, List.getElem?_append_right (Nat.le_refl _), Nat.sub_self, List.getElem?_cons_zero] at seen
      exact (Option.some.inj seen).symm
    have front : before = List.range before.length := by
      have taken := congrArg (List.take before.length) split
      rw [List.take_range, Nat.min_eq_left (Nat.le_of_lt inside), List.take_left] at taken
      exact taken.symm
    refine ⟨position, by omega, last, found, same, ?_⟩
    intro earlier below
    apply List.head?_eq_none_iff.mp
    apply nothing
    rw [front]
    exact List.mem_range.mpr (here ▸ below)
  · intro ⟨position, inside, last, found, same, nothing⟩
    refine ⟨last, List.findSome?_eq_some_iff.mpr ?_, same⟩
    have inRange : position < (List.range (text.length + 1)).length := by
      rw [List.length_range]
      omega
    refine ⟨List.range position, position, (List.range (text.length + 1)).drop (position + 1), ?_, found, ?_⟩
    · have split := List.take_append_drop position (List.range (text.length + 1))
      rw [List.take_range, Nat.min_eq_left (by omega), List.drop_eq_getElem_cons inRange, List.getElem_range] at split
      exact split.symm
    · intro earlier below
      exact List.head?_eq_none_iff.mpr (nothing earlier (List.mem_range.mp below))

/-- A search fails only where the pattern occurs nowhere. -/
theorem search_eq_none {pattern : Pattern} (floating : pattern.Floating) {text : Text} :
    pattern.search text = none ↔ ¬ pattern.Occurs text := by
  rw [search, Option.map_eq_none_iff, List.findSome?_eq_none_iff]
  constructor
  · intro nothing ⟨front, middle, back, groups, here, reads⟩
    have inside : front.length < text.length + 1 := by
      rw [here, List.length_append]
      omega
    have failed := List.head?_eq_none_iff.mp (nothing front.length (List.mem_range.mpr inside))
    rw [here, List.drop_left] at failed
    exact absurd (failed ▸ mem_of_reads reads front.length []) List.not_mem_nil
  · intro absent position _
    apply List.head?_eq_none_iff.mpr
    apply List.eq_nil_iff_forall_not_mem.mpr
    intro last reached
    obtain ⟨middle, groups, reads, here, _, _⟩ := reads_of_mem floating reached
    refine absent ⟨text.take position, middle, last.rest, groups, ?_, reads⟩
    rw [← here, List.take_append_drop]

end Language

section First

/-- Where the match that is tried first ends. -/
def First (pattern : Pattern) (cursor last : Cursor) : Prop := (pattern.successes cursor).head? = some last

theorem first_one {accepts : Char → Bool} {character : Char} {rest : Text} (accepted : accepts character = true)
    (position : Nat) (groups : List Text) :
    First (one accepts) ⟨position, character :: rest, groups⟩ ⟨position + 1, rest, groups⟩ := by
  simp [First, successes, accepted, Cursor.advance]

theorem first_many {accepts : Char → Bool} {least : Nat} (run : Text) {rest : Text}
    (accepted : ∀ character ∈ run, accepts character = true) (enough : least ≤ run.length)
    (stops : rest.head?.all fun character => !accepts character) (position : Nat) (groups : List Text) :
    First (many accepts least) ⟨position, run ++ rest, groups⟩ ⟨position + run.length, rest, groups⟩ := by
  rw [First, successes, takeWhile_run accepted stops, List.range_succ, List.reverse_concat, List.filter_cons_of_pos (by simpa using enough), List.map_cons,
    List.head?_cons, Cursor.advance, List.drop_left]

theorem First.seq {first second : Pattern} {cursor middle last : Cursor} (begun : First first cursor middle)
    (ended : First second middle last) : First (.seq first second) cursor last := by
  obtain ⟨others, shape⟩ := List.head?_eq_some_iff.mp begun
  obtain ⟨more, later⟩ := List.head?_eq_some_iff.mp ended
  rw [First, successes, shape, List.flatMap_cons, later]
  rfl

theorem First.literal {word rest : Text} {next : Pattern} {position : Nat} {groups : List Text} {last : Cursor}
    (begun : First next ⟨position + word.length, rest, groups⟩ last) :
    First (.literal word next) ⟨position, word ++ rest, groups⟩ last := by
  rw [First, literal_successes rfl, Cursor.advance, List.drop_left]
  exact begun

theorem First.group {body : Pattern} {text rest : Text} {position : Nat} {groups : List Text}
    (begun : First body ⟨position, text ++ rest, groups⟩ ⟨position + text.length, rest, groups⟩) :
    First (.group body) ⟨position, text ++ rest, groups⟩ ⟨position + text.length, rest, groups ++ [text]⟩ := by
  rw [First, successes, List.head?_map, begun, Option.map_some, Nat.add_sub_cancel_left, List.take_left]

end First

end Pattern

end Crashomon.Regex
