import Crashomon.Cmake.StoreSym
import Crashomon.Tools.Syms
import Crashomon.Web.SymbolStore
import Mathlib.Data.List.TakeWhile

/-! Where the three writers of a symbol store put a file. The CMake script takes the rest of
the first line for the module name, the Python programs the fifth word. -/

namespace Crashomon.Proofs.StoreAgreement
open Python Regex Cmake.StoreSym
open Tools.Syms (warnSymQuality runDumpSyms storeSymDest)
open Web.SymbolStore (parseModuleLine destOf)

/-- A field between two blanks. -/
structure Field (text : Text) : Prop where
  nonempty : text ≠ []
  solid : ∀ character ∈ text, isSpace character = false

/-- `MODULE os arch id name`; the name is the rest of the line. -/
structure ModuleLine where
  os : Text
  arch : Text
  buildId : Text
  name : Text
  osField : Field os
  archField : Field arch
  buildIdField : Field buildId
  nameNonempty : name ≠ []
  nameOneLine : '\n' ∉ name

def keyword : Text := ['M', 'O', 'D', 'U', 'L', 'E']

def fields (os arch buildId name : Text) : Text :=
  keyword ++ ' ' :: (os ++ ' ' :: (arch ++ ' ' :: (buildId ++ ' ' :: name)))

def ModuleLine.text (line : ModuleLine) : Text := fields line.os line.arch line.buildId line.name

/-- A symbol file that begins with the line. -/
def ModuleLine.content (line : ModuleLine) : (rest : Option Text) → Text
  | none => line.text
  | some rest => line.text ++ '\n' :: rest

/-- `<store>/<name>/<id>/<name>.sym` -/
def symFile (store name buildId : Text) : Text :=
  store ++ '/' :: (name ++ '/' :: (buildId ++ '/' :: (name ++ ".sym".toList)))

def layout (store : Text) (line : ModuleLine) : PurePath := .parse (symFile store line.name line.buildId)

/-- The same components from the same start; `//` is the root. -/
def Same (first second : PurePath) : Prop := first.isAbsolute = second.isAbsolute ∧ first.tail = second.tail

/-- The word that the CMake pattern begins with. -/
theorem keyword_blank (rest : Text) : "MODULE ".toList ++ rest = keyword ++ ' ' :: rest := rfl

section Matching
variable {field more : Text} {later : Pattern} {cursor : Cursor}

/-- Inside a field there is no blank to go on with. -/
private theorem inside_field (free : ' ' ∉ field) {count : Nat} (short : count < field.length) :
    ((field ++ ' ' :: more).drop count).head?.any (fun character => decide (character = ' ')) = false := by
  rw [List.drop_append_of_le_length (Nat.le_of_lt short), ← List.getElem_cons_drop (h := short), List.cons_append]
  have other : field[count] ≠ ' ' := fun same => free (same ▸ List.getElem_mem short)
  simpa using other

private theorem blank_refused {rest : Text} (other : rest.head?.any (fun character => decide (character = ' ')) = false)
    (position : Nat) (groups : List Text) :
    (Pattern.seq (.one (· = ' ')) later).successes ⟨position, rest, groups⟩ = [] :=
  Pattern.seq_failed (if_neg (by simp [other]))

private theorem accepted_field (free : ' ' ∉ field) : ∀ character ∈ field, decide (character ≠ ' ') = true := by
  intro character member
  simpa using fun same : character = ' ' => free (same ▸ member)

theorem blank_successes (position : Nat) (groups : List Text) :
    (Pattern.seq (.one (· = ' ')) later).successes ⟨position, ' ' :: more, groups⟩ =
      later.successes ⟨position + 1, more, groups⟩ := by
  rw [Pattern.successes, Pattern.successes, if_pos (by simp), List.flatMap_singleton]
  rfl

theorem field_successes (nonempty : field ≠ []) (free : ' ' ∉ field) (position : Nat) (groups : List Text) :
    (Pattern.seq (.many (· ≠ ' ') 1) (.seq (.one (· = ' ')) later)).successes ⟨position, field ++ ' ' :: more, groups⟩ =
      later.successes ⟨position + field.length + 1, more, groups⟩ := by
  rw [Pattern.successes, Pattern.flatMap_longest rfl (accepted_field free) (by simp) (List.length_pos_iff.mpr nonempty)]
  · rw [Cursor.advance, List.drop_left, blank_successes]
  · intro count short
    exact blank_refused (inside_field free short) _ _

theorem group_successes (nonempty : field ≠ []) (free : ' ' ∉ field) (position : Nat) (groups : List Text) :
    (Pattern.seq (.group (.many (· ≠ ' ') 1)) (.seq (.one (· = ' ')) later)).successes ⟨position, field ++ ' ' :: more, groups⟩ =
      later.successes ⟨position + field.length + 1, more, groups ++ [field]⟩ := by
  rw [Pattern.successes, Pattern.successes, List.flatMap_map,
    Pattern.flatMap_longest rfl (accepted_field free) (by simp) (List.length_pos_iff.mpr nonempty)]
  · simp only [Cursor.advance, List.drop_left, Nat.add_sub_cancel_left, List.take_left, blank_successes]
  · intro count short
    exact blank_refused (inside_field free short) _ _

theorem rest_successes (nonempty : more ≠ []) (position : Nat) (groups : List Text) :
    ((Pattern.group (.many (fun _ => true) 1)).successes ⟨position, more, groups⟩).head? =
      some ⟨position + more.length, [], groups ++ [more]⟩ := by
  have whole : more.takeWhile (fun _ => true) = more := by
    rw [← List.append_nil more, List.takeWhile_append_of_pos fun _ _ => rfl]
    rfl
  have enough : 1 ≤ more.length := List.length_pos_iff.mpr nonempty
  rw [Pattern.successes, Pattern.successes, whole, List.range_succ, List.reverse_concat,
    List.filter_cons_of_pos (by simpa using enough)]
  simp [Cursor.advance]

/-- The fields of a line are the groups of its match. -/
theorem search_fields {os arch buildId name : Text} (osNonempty : os ≠ []) (osFree : ' ' ∉ os) (archNonempty : arch ≠ [])
    (archFree : ' ' ∉ arch) (idNonempty : buildId ≠ []) (idFree : ' ' ∉ buildId) (nameNonempty : name ≠ []) :
    modulePattern.search (fields os arch buildId name) = some [buildId, name] := by
  have reaches : ∃ position, (modulePattern.successes ⟨0, fields os arch buildId name, []⟩).head? =
      some ⟨position, [], [buildId, name]⟩ := by
    have here : (⟨0, fields os arch buildId name, []⟩ : Cursor).rest =
        "MODULE ".toList ++ (os ++ ' ' :: (arch ++ ' ' :: (buildId ++ ' ' :: name))) := by
      rw [keyword_blank]
      rfl
    rw [modulePattern, Pattern.successes, Pattern.successes, if_pos rfl, List.flatMap_singleton,
      Pattern.literal_successes here, Cursor.advance, here, List.drop_left, field_successes osNonempty osFree, field_successes archNonempty archFree,
      group_successes idNonempty idFree, rest_successes nameNonempty]
    exact ⟨_, rfl⟩
  obtain ⟨position, first⟩ := reaches
  exact Pattern.search_of_head first

/-- A field and the blank behind it, where the pattern goes on. -/
private theorem mem_blank {last : Cursor} (reached : last ∈ (Pattern.seq (.one (· = ' ')) later).successes cursor) :
    ∃ next, last ∈ later.successes next ∧ cursor.rest = ' ' :: next.rest ∧ next.groups = cursor.groups := by
  obtain ⟨next, blank, goesOn⟩ := Pattern.mem_seq.mp reached
  obtain ⟨character, same, rest, advanced⟩ := Pattern.mem_one blank
  refine ⟨next, goesOn, ?_, ?_⟩
  · rw [rest, of_decide_eq_true same]
  · rw [advanced]
    rfl

private theorem free_of_accepted {run : Text} (accepted : ∀ character ∈ run, decide (character ≠ ' ') = true) : ' ' ∉ run :=
  fun member => of_decide_eq_true (accepted ' ' member) rfl

private theorem mem_field {last : Cursor}
    (reached : last ∈ (Pattern.seq (.many (· ≠ ' ') 1) (.seq (.one (· = ' ')) later)).successes cursor) :
    ∃ field next, last ∈ later.successes next ∧ ' ' ∉ field ∧ cursor.rest = field ++ ' ' :: next.rest ∧
      next.groups = cursor.groups := by
  obtain ⟨middle, run, goesOn⟩ := Pattern.mem_seq.mp reached
  obtain ⟨field, _, accepted, rest, advanced⟩ := Pattern.mem_many run
  obtain ⟨next, later, blank, groups⟩ := mem_blank goesOn
  refine ⟨field, next, later, free_of_accepted accepted, ?_, ?_⟩
  · rw [rest, blank]
  · rw [groups, advanced]
    rfl

private theorem mem_captured {accepts : Char → Bool} {last : Cursor}
    (reached : last ∈ (Pattern.group (.many accepts 1)).successes cursor) :
    ∃ run, run ≠ [] ∧ (∀ character ∈ run, accepts character = true) ∧ cursor.rest = run ++ last.rest ∧
      last.groups = cursor.groups ++ [run] := by
  obtain ⟨inner, many, _, rest, groups⟩ := Pattern.mem_group reached
  obtain ⟨run, enough, accepted, taken, advanced⟩ := Pattern.mem_many many
  refine ⟨run, List.length_pos_iff.mp enough, accepted, ?_, ?_⟩
  · rw [rest, taken]
  · rw [groups, taken, advanced]
    simp [Cursor.advance]

/-- A line that matches is made of fields. -/
theorem search_shape {text : Text} {groups : List Text} (found : modulePattern.search text = some groups) :
    ∃ os arch buildId name more, text = fields os arch buildId (name ++ more) ∧ groups = [buildId, name] ∧ name ≠ [] ∧
      ' ' ∉ os ∧ ' ' ∉ arch ∧ ' ' ∉ buildId := by
  obtain ⟨position, last, member, same⟩ := Pattern.search_reaches found
  obtain ⟨start, anchored, member⟩ := Pattern.mem_seq.mp member
  rw [Pattern.successes] at anchored
  split at anchored
  next zero =>
    cases List.mem_singleton.mp anchored
    obtain ⟨first, member, word, none⟩ := Pattern.mem_literal member
    obtain ⟨os, second, member, osFree, osRest, noneYet⟩ := mem_field member
    obtain ⟨arch, third, member, archFree, archRest, stillNone⟩ := mem_field member
    obtain ⟨fourth, captured, member⟩ := Pattern.mem_seq.mp member
    obtain ⟨buildId, _, accepted, idRest, idGroups⟩ := mem_captured captured
    obtain ⟨fifth, member, blank, kept⟩ := mem_blank member
    obtain ⟨name, nameNonempty, _, nameRest, nameGroups⟩ := mem_captured member
    refine ⟨os, arch, buildId, name, last.rest, ?_, ?_, nameNonempty, osFree, archFree, free_of_accepted accepted⟩
    · have whole : text.drop position = "MODULE ".toList ++ first.rest := word
      have beginning : position = 0 := zero
      subst beginning
      rw [keyword_blank, osRest, archRest, idRest, blank, nameRest] at whole
      exact whole
    · rw [← same, nameGroups, kept, idGroups, stillNone, noneYet, none]
      rfl
  next => cases anchored

end Matching

section Header

theorem firstString_begun {content current : Text} (begun : current ≠ []) :
    firstString content current = current ++ (content.filter (· ≠ '\r')).takeWhile isStringCharacter := by
  induction content generalizing current with
  | nil => simp [firstString]
  | cons character content ih =>
    rw [firstString]
    split
    next returns =>
      rw [ih begun, returns]
      rfl
    next other =>
      rw [List.filter_cons_of_pos (by simpa using other)]
      split
      next collected =>
        rw [ih (by simp), List.takeWhile_cons_of_pos collected]
        simp
      next ends =>
        rw [List.takeWhile_cons_of_neg ends]
        simp

/-- The first string of a content that begins with one. -/
theorem firstString_line {character : Char} {content : Text} (collected : isStringCharacter character = true) :
    firstString (character :: content) [] = ((character :: content).filter (· ≠ '\r')).takeWhile isStringCharacter := by
  have other : character ≠ '\r' := by
    rintro rfl
    cases collected
  rw [firstString, if_neg other, if_pos collected, firstString_begun (by simp), List.filter_cons_of_pos (by simpa using other),
    List.takeWhile_cons_of_pos collected]
  rfl

theorem keyword_field : Field keyword := ⟨List.cons_ne_nil _ _, solid_of_all rfl⟩

theorem forall_mem_fields {holds : Char → Prop} {os arch buildId name : Text} (word : ∀ character ∈ keyword, holds character)
    (blank : holds ' ') (osHolds : ∀ character ∈ os, holds character) (archHolds : ∀ character ∈ arch, holds character)
    (idHolds : ∀ character ∈ buildId, holds character) (nameHolds : ∀ character ∈ name, holds character) :
    ∀ character ∈ fields os arch buildId name, holds character := by
  unfold fields
  refine List.forall_mem_append.mpr ⟨word, List.forall_mem_cons.mpr ⟨blank, ?_⟩⟩
  refine List.forall_mem_append.mpr ⟨osHolds, List.forall_mem_cons.mpr ⟨blank, ?_⟩⟩
  refine List.forall_mem_append.mpr ⟨archHolds, List.forall_mem_cons.mpr ⟨blank, ?_⟩⟩
  exact List.forall_mem_append.mpr ⟨idHolds, List.forall_mem_cons.mpr ⟨blank, nameHolds⟩⟩

variable {line : ModuleLine}

theorem no_return (solid : ∀ character ∈ line.name, isSpace character = false) : ∀ character ∈ line.text, character ≠ '\r' := by
  have other (character : Char) (visible : isSpace character = false) : character ≠ '\r' := by
    rintro rfl
    cases visible
  exact forall_mem_fields (fun _ member => other _ (keyword_field.solid _ member)) (by decide) (fun _ member => other _ (line.osField.solid _ member))
    (fun _ member => other _ (line.archField.solid _ member)) (fun _ member => other _ (line.buildIdField.solid _ member))
    (fun _ member => other _ (solid _ member))

/-- What is read of a line without other blanks: it up to its first strange character. -/
theorem fileStrings_line (solid : ∀ character ∈ line.name, isSpace character = false) (rest : Option Text) :
    fileStrings (line.content rest) = escape (line.text.takeWhile isStringCharacter) := by
  have clean : line.text.filter (· ≠ '\r') = line.text := by
    apply List.filter_eq_self.mpr
    intro character member
    exact decide_eq_true (no_return solid character member)
  obtain ⟨more, text⟩ : ∃ more, line.text = 'M' :: more := ⟨_, rfl⟩
  have ended (later : Text) (stops : later.takeWhile isStringCharacter = []) :
      (line.text ++ later).takeWhile isStringCharacter = line.text.takeWhile isStringCharacter := by
    rw [List.takeWhile_append, stops, List.append_nil]
    split
    next whole => exact ((List.takeWhile_prefix isStringCharacter).eq_of_length whole).symm
    next => rfl
  have first (later : Text) : firstString (line.text ++ later) [] =
      (line.text ++ later.filter (· ≠ '\r')).takeWhile isStringCharacter := by
    rw [text, List.cons_append, firstString_line rfl, ← List.cons_append, ← text, List.filter_append, clean]
  unfold fileStrings
  cases rest with
  | none =>
    have whole := first []
    rw [List.append_nil] at whole
    rw [ModuleLine.content, whole, List.filter_nil, ended [] rfl]
  | some rest =>
    rw [ModuleLine.content, first ('\n' :: rest), ended]
    rfl

theorem escape_append (first second : Text) : escape (first ++ second) = escape first ++ escape second :=
  List.flatMap_append

theorem escape_eq {text : Text} (plain : ';' ∉ text) : escape text = text := by
  induction text with
  | nil => rfl
  | cons character text ih =>
    have other : character ≠ ';' := fun same => plain (same ▸ List.mem_cons_self)
    rw [escape, List.flatMap_cons, if_neg other]
    exact congrArg (character :: ·) (ih (List.not_mem_of_not_mem_cons plain))

theorem mem_escape {character : Char} {text : Text} (member : character ∈ escape text) : character ∈ text ∨ character = '\\' := by
  obtain ⟨original, inside, found⟩ := List.mem_flatMap.mp member
  split at found
  next semicolon =>
    rcases List.mem_cons.mp found with slash | same
    · exact Or.inr slash
    · rw [List.mem_singleton.mp same, ← semicolon]
      exact Or.inl inside
  next =>
    rw [List.mem_singleton.mp found]
    exact Or.inl inside

theorem countP_escape {marked : Char → Bool} (text : Text) :
    (escape text).countP marked = text.countP marked + (if marked '\\' then text.count ';' else 0) := by
  induction text with
  | nil => simp [escape]
  | cons character text ih =>
    rw [escape, List.flatMap_cons, List.countP_append]
    rw [escape] at ih
    rw [ih, List.countP_cons, List.count_cons]
    split
    next semicolon =>
      rw [semicolon]
      by_cases slash : marked '\\' = true
      · simp [slash, List.countP_cons]
        omega
      · simp [slash, List.countP_cons]
        omega
    next other =>
      simp [other, List.countP_cons]
      omega

theorem escape_fields (os arch buildId name : Text) :
    escape (fields os arch buildId name) = fields (escape os) (escape arch) (escape buildId) (escape name) := by
  have blank (text : Text) : escape (' ' :: text) = ' ' :: escape text := escape_append [' '] text
  simp only [fields, escape_append, blank]
  rfl

theorem escape_free {text : Text} (free : ' ' ∉ text) : ' ' ∉ escape text := by
  intro member
  rcases mem_escape member with inside | slash
  · exact free inside
  · cases slash

theorem fields_inj {os arch buildId name os' arch' buildId' name' : Text} (osFree : ' ' ∉ os) (archFree : ' ' ∉ arch)
    (idFree : ' ' ∉ buildId) (osFree' : ' ' ∉ os') (archFree' : ' ' ∉ arch') (idFree' : ' ' ∉ buildId')
    (same : fields os arch buildId name = fields os' arch' buildId' name') : name = name' := by
  have behind := (List.cons.inj (List.append_cancel_left same)).2
  have third := (split_at_first osFree osFree' behind).2
  have fourth := (split_at_first archFree archFree' third).2
  exact (split_at_first idFree idFree' fourth).2

/-- A blank that is read stands behind a field that is read whole. -/
theorem takeWhile_field {accepts : Char → Bool} {field more : Text} {blanks : Nat} (blank : accepts ' ' = true) (free : ' ' ∉ field)
    (counted : blanks + 1 ≤ ((field ++ ' ' :: more).takeWhile accepts).count ' ') :
    (∀ character ∈ field, accepts character = true) ∧
      (field ++ ' ' :: more).takeWhile accepts = field ++ ' ' :: more.takeWhile accepts ∧
      blanks ≤ (more.takeWhile accepts).count ' ' := by
  rw [List.takeWhile_append] at counted ⊢
  split at counted
  next whole =>
    have all : field.takeWhile accepts = field := (List.takeWhile_prefix accepts).eq_of_length whole
    rw [List.takeWhile_cons_of_pos blank] at counted ⊢
    rw [List.count_append, List.count_eq_zero_of_not_mem free, List.count_cons_self] at counted
    exact ⟨List.takeWhile_eq_self_iff.mp all, by rw [if_pos whole], by omega⟩
  next =>
    rw [List.count_eq_zero_of_not_mem fun member => free (List.takeWhile_subset accepts member)] at counted
    omega

end Header

section Words
variable {line : ModuleLine} {content moduleName buildId : Text}

/-- A code ID line has a code ID. -/
def CodeIdGiven (content : Text) : Prop :=
  ∀ line, (splitlines content).find? (fun line => "INFO CODE_ID ".toList.isPrefixOf line) = some line → 3 ≤ (split line).length

theorem warnSymQuality_iff : warnSymQuality (splitlines content) = .ok () ↔ CodeIdGiven content := by
  unfold warnSymQuality CodeIdGiven
  cases (splitlines content).find? fun line => "INFO CODE_ID ".toList.isPrefixOf line with
  | none => simp
  | some line =>
    by_cases short : (split line).length < 3
    · simp [short]
    · simp [short, Nat.le_of_not_lt short]

/-- Both Python programs read the line the same way. -/
theorem runDumpSyms_iff (nonempty : content ≠ []) {symText : Text} :
    runDumpSyms 0 content = .ok (some (moduleName, buildId, symText)) ↔
      parseModuleLine content = .ok (moduleName, buildId) ∧ symText = content ∧ CodeIdGiven content := by
  rw [← warnSymQuality_iff]
  unfold runDumpSyms parseModuleLine
  rw [if_neg (by simp [nonempty])]
  dsimp only
  generalize split ((splitlines content).headD []) = words
  rcases words with _ | ⟨word, _ | ⟨second, _ | ⟨third, _ | ⟨fourth, _ | ⟨fifth, later⟩⟩⟩⟩⟩
  case cons.cons.cons.cons.cons =>
    by_cases module : word = "MODULE".toList
    · simp only [module, if_true]
      cases warnSymQuality (splitlines content) with
      | error raised => simp [bind, Except.bind]
      | ok value =>
        simp only [bind, Except.bind, Except.ok.injEq, Option.some.injEq, Prod.mk.injEq, and_true]
        constructor
        · rintro ⟨name, identifier, text⟩
          exact ⟨⟨name, identifier⟩, text.symm⟩
        · rintro ⟨⟨name, identifier⟩, text⟩
          exact ⟨name, identifier, text.symm⟩
    · simp only [module, if_false, reduceCtorEq, Except.ok.injEq, false_and]
  all_goals simp

theorem solid_of_parsed (parsed : parseModuleLine content = .ok (moduleName, buildId)) :
    (∀ character ∈ moduleName, isSpace character = false) ∧ ∀ character ∈ buildId, isSpace character = false := by
  unfold parseModuleLine at parsed
  dsimp only at parsed
  split at parsed
  next word second third fourth fifth later words =>
    split at parsed
    next =>
      obtain ⟨name, identifier⟩ := Prod.mk.inj (Except.ok.inj parsed)
      refine ⟨@solid_of_mem_split ((splitlines content).headD []) _ ?_, @solid_of_mem_split ((splitlines content).headD []) _ ?_⟩
      · rw [words]
        simp [name]
      · rw [words]
        simp [identifier]
    next => cases parsed
  next => cases parsed

theorem first_line (solid : ∀ character ∈ line.name, isSpace character = false) (rest : Option Text) :
    (splitlines (line.content rest)).headD [] = line.text := by
  have unbroken : ∀ character ∈ line.text, ¬ isLineBreak character := by
    have visible (character : Char) (shown : isSpace character = false) : ¬ isLineBreak character := by
      intro breaks
      rw [isSpace_of_isLineBreak breaks] at shown
      cases shown
    exact forall_mem_fields (fun _ member => visible _ (keyword_field.solid _ member)) (by decide) (fun _ member => visible _ (line.osField.solid _ member))
      (fun _ member => visible _ (line.archField.solid _ member)) (fun _ member => visible _ (line.buildIdField.solid _ member))
      (fun _ member => visible _ (solid _ member))
  cases rest with
  | none =>
    have nonempty : line.text ≠ [] := List.cons_ne_nil _ _
    rw [ModuleLine.content, splitlines_unended nonempty unbroken]
    rfl
  | some rest =>
    rw [ModuleLine.content, splitlines_append, splitlines_line unbroken]
    rfl

theorem Field.split {field : Text} (valid : Field field) (more : Text) :
    Python.split (field ++ ' ' :: more) = field :: Python.split more := by
  rw [split_append rfl, split_word valid.nonempty valid.solid, List.singleton_append]

theorem parseModuleLine_line (solid : ∀ character ∈ line.name, isSpace character = false) (rest : Option Text) :
    parseModuleLine (line.content rest) = .ok (line.name, line.buildId) := by
  have words : split line.text = [keyword, line.os, line.arch, line.buildId, line.name] := by
    rw [ModuleLine.text, fields, keyword_field.split, line.osField.split, line.archField.split, line.buildIdField.split,
      split_word line.nameNonempty solid]
  unfold parseModuleLine
  dsimp only
  rw [first_line solid, words]
  exact if_pos rfl

end Words

/-- All three writers choose the file of the layout. -/
structure SameDestination (store : Text) (line : ModuleLine) (rest : Option Text) : Prop where
  cmake : ∃ path, destination store (line.content rest) = some path ∧ Same (.parse path) (layout store line)
  dumped : ∃ moduleName buildId symText, runDumpSyms 0 (line.content rest) = .ok (some (moduleName, buildId, symText)) ∧
    Same (storeSymDest (.parse store) moduleName buildId) (layout store line)
  uploaded : ∃ moduleName buildId, parseModuleLine (line.content rest) = .ok (moduleName, buildId) ∧
    Same (destOf store moduleName buildId) (layout store line)

def isPrintable (character : Char) : Bool := 0x21 ≤ character.toNat && character.toNat < 0x7F

/-- The store is the root directory, or empty, which CMake takes for it. -/
def Rooted (store : Text) : Prop := (store = [] ∨ store.head? = some '/') ∧ PurePath.components store = []

/-- An absolute name or build ID replaces what pathlib has joined before it. -/
def Placed (store buildId name : Text) : Prop :=
  if name.head? = some '/' then Rooted store ∧ PurePath.components name = [] ∧ PurePath.components buildId = []
  else if buildId.head? = some '/' then Rooted store ∧ PurePath.components name = []
  else store ≠ []

/-- What the line and the store have to be like for the writers to agree. -/
structure Ordinary (store : Text) (line : ModuleLine) (rest : Option Text) : Prop where
  printable : ∀ field ∈ [line.os, line.arch, line.buildId, line.name], ∀ character ∈ field, isPrintable character = true
  unescaped : ';' ∉ line.buildId ∧ ';' ∉ line.name
  truthy : isOff line.buildId = false ∧ isOff line.name = false
  placed : Placed store line.buildId line.name
  codeIdGiven : CodeIdGiven (line.content rest)

section Placement
variable {store buildId name : Text}

theorem layout_tail (store : Text) (line : ModuleLine) : (layout store line).tail =
    PurePath.components store ++ (PurePath.components line.name ++
      (PurePath.components line.buildId ++ PurePath.components (line.name ++ ".sym".toList))) := by
  rw [layout, symFile, PurePath.parse_tail, PurePath.components_append, PurePath.components_append, PurePath.components_append]

theorem layout_isAbsolute (store : Text) (line : ModuleLine) :
    (layout store line).isAbsolute = decide (store = [] ∨ store.head? = some '/') := by
  rw [layout, symFile, PurePath.isAbsolute_parse]
  cases store <;> simp

theorem head_extended (nonempty : name ≠ []) (suffix : Text) : (name ++ suffix).head? = name.head? :=
  List.head?_append_of_ne_nil name nonempty

theorem isAbsolute_sym (nonempty : name ≠ []) :
    (PurePath.parse (name ++ ".sym".toList)).isAbsolute = decide (name.head? = some '/') := by
  rw [PurePath.isAbsolute_parse, head_extended nonempty]

/-- Joining gives the layout but for absolute parts. -/
theorem same_iff_placed {line : ModuleLine} :
    Same (destOf store line.name line.buildId) (layout store line) ↔ Placed store line.buildId line.name := by
  have file := isAbsolute_sym line.nameNonempty
  have directory := PurePath.isAbsolute_parse line.name
  unfold Same
  rw [layout_tail, layout_isAbsolute, destOf, Web.SymbolStore.destDirOf, Placed, Rooted]
  by_cases absoluteName : line.name.head? = some '/'
  · rw [absoluteName] at file
    rw [PurePath.join_absolute file, file, PurePath.parse_tail, if_pos absoluteName, ← List.append_assoc, ← List.append_assoc,
      List.self_eq_append_left, List.append_eq_nil_iff, List.append_eq_nil_iff]
    simp [and_assoc]
  · rw [decide_eq_false absoluteName] at file directory
    have identifier := PurePath.isAbsolute_parse line.buildId
    rw [PurePath.join_relative file, if_neg absoluteName, PurePath.parse_tail]
    by_cases absoluteId : line.buildId.head? = some '/'
    · rw [absoluteId] at identifier
      rw [PurePath.join_absolute identifier, if_pos absoluteId]
      show (PurePath.parse line.buildId).isAbsolute = _ ∧ (PurePath.parse line.buildId).tail ++ _ = _ ↔ _
      rw [identifier, PurePath.parse_tail, ← List.append_assoc (PurePath.components store), List.self_eq_append_left,
        List.append_eq_nil_iff]
      simp [and_assoc]
    · rw [decide_eq_false absoluteId] at identifier
      rw [PurePath.join_relative identifier, PurePath.join_relative directory, if_neg absoluteId]
      show (PurePath.parse store).isAbsolute = _ ∧ ((PurePath.parse store).tail ++ _ ++ _) ++ _ = _ ↔ _
      rw [PurePath.isAbsolute_parse, PurePath.parse_tail, PurePath.parse_tail, PurePath.parse_tail, List.append_assoc,
        List.append_assoc]
      cases store <;> simp

end Placement

section Reading
variable {store : Text} {line : ModuleLine} {rest : Option Text}

def Accepted (text : Text) : Prop := ∀ character ∈ text, isStringCharacter character = true

theorem Field.free {field : Text} (valid : Field field) : ' ' ∉ field := by
  intro member
  cases valid.solid ' ' member

theorem escape_ne_nil {text : Text} (nonempty : text ≠ []) : escape text ≠ [] := by
  obtain ⟨character, text, rfl⟩ := List.exists_cons_of_ne_nil nonempty
  rw [escape, List.flatMap_cons]
  split <;> exact List.cons_ne_nil _ _

theorem takeWhile_fields (os arch buildId name : Text) (osAccepted : Accepted os) (archAccepted : Accepted arch)
    (idAccepted : Accepted buildId) :
    (fields os arch buildId name).takeWhile isStringCharacter = fields os arch buildId (name.takeWhile isStringCharacter) := by
  have blank (text : Text) : (' ' :: text).takeWhile isStringCharacter = ' ' :: text.takeWhile isStringCharacter :=
    List.takeWhile_cons_of_pos rfl
  have word : Accepted keyword := List.all_eq_true.mp rfl
  unfold fields
  rw [List.takeWhile_append_of_pos word, blank, List.takeWhile_append_of_pos osAccepted, blank,
    List.takeWhile_append_of_pos archAccepted, blank, List.takeWhile_append_of_pos idAccepted, blank]

theorem moduleOf_eq (solid : ∀ character ∈ line.name, isSpace character = false) (osAccepted : Accepted line.os)
    (archAccepted : Accepted line.arch) (idAccepted : Accepted line.buildId)
    (begun : line.name.takeWhile isStringCharacter ≠ []) :
    moduleOf (line.content rest) =
      if isOff (escape line.buildId) ∨ isOff (escape (line.name.takeWhile isStringCharacter)) then none
      else some (escape line.buildId, escape (line.name.takeWhile isStringCharacter)) := by
  unfold moduleOf
  rw [fileStrings_line solid, ModuleLine.text, takeWhile_fields _ _ _ _ osAccepted archAccepted idAccepted, escape_fields,
    search_fields (escape_ne_nil line.osField.nonempty) (escape_free line.osField.free)
      (escape_ne_nil line.archField.nonempty) (escape_free line.archField.free)
      (escape_ne_nil line.buildIdField.nonempty) (escape_free line.buildIdField.free) (escape_ne_nil begun)]

/-- A match needs four blanks, so all that stands before the name is read. -/
theorem accepted_of_moduleOf (solid : ∀ character ∈ line.name, isSpace character = false) {module : Text × Text}
    (found : moduleOf (line.content rest) = some module) :
    Accepted line.os ∧ Accepted line.arch ∧ Accepted line.buildId ∧ line.name.takeWhile isStringCharacter ≠ [] := by
  unfold moduleOf at found
  rw [fileStrings_line solid] at found
  obtain ⟨groups, matched⟩ : ∃ groups, modulePattern.search (escape (line.text.takeWhile isStringCharacter)) = some groups := by
    cases searched : modulePattern.search (escape (line.text.takeWhile isStringCharacter)) with
    | none =>
      rw [searched] at found
      cases found
    | some groups => exact ⟨groups, rfl⟩
  obtain ⟨os, arch, buildId, name, more, shape, _, nonempty, osFree, archFree, idFree⟩ := search_shape matched
  have counted : 3 + 1 ≤ (line.text.takeWhile isStringCharacter).count ' ' := by
    have same := @countP_escape (· == ' ') (line.text.takeWhile isStringCharacter)
    rw [shape] at same
    unfold fields at same
    simp only [List.countP_append, List.countP_cons] at same
    simp [List.count] at same ⊢
    omega
  obtain ⟨_, _, counted⟩ := takeWhile_field rfl (by decide) counted
  obtain ⟨osAccepted, _, counted⟩ := takeWhile_field rfl line.osField.free counted
  obtain ⟨archAccepted, _, counted⟩ := takeWhile_field rfl line.archField.free counted
  obtain ⟨idAccepted, _, _⟩ := takeWhile_field rfl line.buildIdField.free counted
  refine ⟨osAccepted, archAccepted, idAccepted, ?_⟩
  intro nothing
  rw [ModuleLine.text, takeWhile_fields _ _ _ _ osAccepted archAccepted idAccepted, escape_fields, nothing] at shape
  have empty := fields_inj (escape_free line.osField.free) (escape_free line.archField.free)
    (escape_free line.buildIdField.free) osFree archFree idFree shape
  exact nonempty (List.append_eq_nil_iff.mp empty.symm).1

end Reading

section Agreement
variable {store : Text} {line : ModuleLine} {rest : Option Text} {marked : Char → Bool}

theorem marks_symFile (slash : marked '/' = false) (dot : marked '.' = false) (store name buildId : Text) :
    PurePath.marks marked (PurePath.parse (symFile store name buildId)).tail =
      store.countP marked + 2 * name.countP marked + buildId.countP marked + ".sym".toList.countP marked := by
  rw [PurePath.parse_tail, PurePath.marks_components slash dot, symFile]
  simp only [List.countP_append, List.countP_cons, slash]
  simp
  omega

theorem destination_eq_some {content path : Text} (found : destination store content = some path) :
    ∃ buildId moduleName, moduleOf content = some (buildId, moduleName) ∧ path = symFile store moduleName buildId := by
  obtain ⟨⟨buildId, moduleName⟩, module, same⟩ := Option.map_eq_some_iff.mp found
  refine ⟨buildId, moduleName, module, ?_⟩
  rw [← same, symFile]
  simp

theorem countP_unmarked {text : Text} (unmarked : ∀ character ∈ text, marked character = false) : text.countP marked = 0 :=
  List.countP_eq_zero.mpr fun character member => by simp [unmarked character member]

theorem unmarked_of_countP {text : Text} (none : text.countP marked = 0) : ∀ character ∈ text, marked character = false :=
  fun character member => by simpa using List.countP_eq_zero.mp none character member

/-- The Python programs find no blank in a name. -/
theorem solid_of_uploaded {moduleName buildId : Text} (parsed : parseModuleLine (line.content rest) = .ok (moduleName, buildId))
    (same : Same (destOf store moduleName buildId) (layout store line)) : ∀ character ∈ line.name, isSpace character = false := by
  obtain ⟨nameSolid, idSolid⟩ := solid_of_parsed parsed
  have chosen : PurePath.marks isSpace (destOf store moduleName buildId).tail ≤ store.countP isSpace := by
    have first := @PurePath.marks_join isSpace (.parse store) (.parse moduleName)
    have second := @PurePath.marks_join isSpace ((PurePath.parse store).join (.parse moduleName)) (.parse buildId)
    have third := @PurePath.marks_join isSpace (((PurePath.parse store).join (.parse moduleName)).join (.parse buildId))
      (.parse (moduleName ++ ".sym".toList))
    simp only [PurePath.parse_tail, @PurePath.marks_components isSpace rfl rfl, countP_unmarked nameSolid,
      countP_unmarked idSolid, List.countP_append] at first second third
    have suffix : ".sym".toList.countP isSpace = 0 := by decide
    unfold destOf Web.SymbolStore.destDirOf
    omega
  rw [same.2, layout, marks_symFile rfl rfl] at chosen
  exact unmarked_of_countP (by omega)

theorem accepted_escape {text : Text} (accepted : Accepted text) : Accepted (escape text) := by
  intro character member
  rcases mem_escape member with inside | slash
  · exact accepted character inside
  · rw [slash]
    rfl

theorem accepted_takeWhile (text : Text) : Accepted (text.takeWhile isStringCharacter) :=
  fun _ member => List.mem_takeWhile_imp member

theorem not_mem_of_count {character : Char} {text : Text} (none : text.count character = 0) : character ∉ text :=
  List.count_eq_zero.mp none

/-- What the CMake script leaves out of a name or puts into it shows in the path. -/
theorem plain_of_stored {path : Text} (solid : ∀ character ∈ line.name, isSpace character = false)
    (found : destination store (line.content rest) = some path) (same : Same (.parse path) (layout store line)) :
    (∀ field ∈ [line.os, line.arch, line.buildId, line.name], Accepted field) ∧ (';' ∉ line.buildId ∧ ';' ∉ line.name) ∧
      isOff line.buildId = false ∧ isOff line.name = false := by
  obtain ⟨buildId, moduleName, module, path⟩ := destination_eq_some found
  obtain ⟨osAccepted, archAccepted, idAccepted, begun⟩ := accepted_of_moduleOf solid module
  rw [moduleOf_eq solid osAccepted archAccepted idAccepted begun] at module
  split at module
  next => cases module
  next truthy =>
    obtain ⟨sameId, sameName⟩ := Prod.mk.inj (Option.some.inj module)
    rw [path] at same
    have strange := congrArg (PurePath.marks fun character => !isStringCharacter character) same.2
    have unmarked {text : Text} (accepted : Accepted text) : text.countP (fun character => !isStringCharacter character) = 0 :=
      countP_unmarked fun character member => by simp [accepted character member]
    rw [layout, marks_symFile rfl rfl, marks_symFile rfl rfl, ← sameId, ← sameName, unmarked idAccepted,
      unmarked (accepted_escape idAccepted), unmarked (accepted_escape (accepted_takeWhile line.name))] at strange
    have nameAccepted : Accepted line.name := by
      intro character member
      have none : line.name.countP (fun character => !isStringCharacter character) = 0 := by omega
      simpa using unmarked_of_countP none character member
    have whole : line.name.takeWhile isStringCharacter = line.name := List.takeWhile_eq_self_iff.mpr nameAccepted
    rw [whole] at sameName truthy
    have slashes := congrArg (PurePath.marks (· == '\\')) same.2
    rw [layout, marks_symFile rfl rfl, marks_symFile rfl rfl, ← sameId, ← sameName, countP_escape, countP_escape] at slashes
    simp only [beq_self_eq_true, if_true] at slashes
    have idPlain : ';' ∉ line.buildId := not_mem_of_count (by omega)
    have namePlain : ';' ∉ line.name := not_mem_of_count (by omega)
    rw [escape_eq idPlain, escape_eq namePlain] at truthy
    refine ⟨?_, ⟨idPlain, namePlain⟩, by simpa using truthy⟩
    simp only [List.forall_mem_cons]
    exact ⟨osAccepted, archAccepted, idAccepted, nameAccepted, List.forall_mem_nil _⟩

theorem printable_iff (character : Char) :
    isPrintable character = true ↔ isStringCharacter character = true ∧ isSpace character = false := by
  have tab : character = '\t' ↔ character.toNat = 9 := by
    rw [← Char.toNat_inj]
    rfl
  simp only [isPrintable, isStringCharacter, isSpace, Bool.or_eq_true, Bool.and_eq_true, decide_eq_true_eq, tab,
    Bool.or_eq_false_iff, Bool.and_eq_false_iff, decide_eq_false_iff_not, beq_eq_false_iff_ne]
  omega

theorem stored_of_plain (ordinary : Ordinary store line rest) :
    destination store (line.content rest) = some (symFile store line.name line.buildId) := by
  have fieldPrintable := ordinary.printable
  simp only [List.forall_mem_cons] at fieldPrintable
  obtain ⟨os, arch, buildId, name, _⟩ := fieldPrintable
  have accepted {text : Text} (printable : ∀ character ∈ text, isPrintable character = true) : Accepted text :=
    fun character member => ((printable_iff character).mp (printable character member)).1
  have solid : ∀ character ∈ line.name, isSpace character = false :=
    fun character member => ((printable_iff character).mp (name character member)).2
  have whole : line.name.takeWhile isStringCharacter = line.name := List.takeWhile_eq_self_iff.mpr (accepted name)
  have module : moduleOf (line.content rest) = some (line.buildId, line.name) := by
    rw [moduleOf_eq solid (accepted os) (accepted arch) (accepted buildId) (by rw [whole]; exact line.nameNonempty), whole,
      escape_eq ordinary.unescaped.1, escape_eq ordinary.unescaped.2, if_neg (by simp [ordinary.truthy])]
  rw [destination, module, symFile]
  simp

/-- The writers agree on the lines whose fields are printable ASCII, apart from a few names that CMake
reads as false or escapes and from absolute parts. -/
theorem same_destination_iff (store : Text) (line : ModuleLine) (rest : Option Text) :
    SameDestination store line rest ↔ Ordinary store line rest := by
  have nonempty : line.content rest ≠ [] := by
    cases rest <;> exact List.cons_ne_nil _ _
  constructor
  · intro ⟨⟨path, found, stored⟩, ⟨name, identifier, text, ran, dumped⟩, moduleName, buildId, parsed, uploaded⟩
    have solid := solid_of_uploaded parsed uploaded
    obtain ⟨accepted, unescaped, truthy⟩ := plain_of_stored solid found stored
    rw [parseModuleLine_line solid] at parsed
    cases parsed
    have solidFields : ∀ field ∈ [line.os, line.arch, line.buildId, line.name], ∀ character ∈ field, isSpace character = false := by
      simp only [List.forall_mem_cons]
      exact ⟨line.osField.solid, line.archField.solid, line.buildIdField.solid, solid, List.forall_mem_nil _⟩
    refine ⟨?_, unescaped, truthy, same_iff_placed.mp uploaded, ((runDumpSyms_iff nonempty).mp ran).2.2⟩
    intro field inLine character member
    exact (printable_iff character).mpr ⟨accepted field inLine character member, solidFields field inLine character member⟩
  · intro ordinary
    have solid : ∀ character ∈ line.name, isSpace character = false :=
      fun character member => ((printable_iff character).mp (ordinary.printable line.name (by simp) character member)).2
    have parsed := parseModuleLine_line solid rest
    have chosen := same_iff_placed.mpr ordinary.placed
    refine ⟨⟨_, stored_of_plain ordinary, rfl, rfl⟩, ⟨_, _, _, (runDumpSyms_iff nonempty).mpr ⟨parsed, rfl, ordinary.codeIdGiven⟩, ?_⟩,
      ⟨_, _, parsed, chosen⟩⟩
    exact chosen

def spacedLine : ModuleLine where
  os := "Linux".toList
  arch := "x86_64".toList
  buildId := "ABC0".toList
  name := "my lib.so".toList
  osField := ⟨List.cons_ne_nil _ _, solid_of_all rfl⟩
  archField := ⟨List.cons_ne_nil _ _, solid_of_all rfl⟩
  buildIdField := ⟨List.cons_ne_nil _ _, solid_of_all rfl⟩
  nameNonempty := List.cons_ne_nil _ _
  nameOneLine := by decide

/-- A name with a blank is stored under two names. -/
theorem spaced_name_differs :
    destination "/store".toList (spacedLine.content none) = some "/store/my lib.so/ABC0/my lib.so.sym".toList ∧
      parseModuleLine (spacedLine.content none) = .ok ("my".toList, "ABC0".toList) ∧
      destOf "/store".toList "my".toList "ABC0".toList = .parse "/store/my/ABC0/my.sym".toList ∧
      ¬ SameDestination "/store".toList spacedLine none := by
  refine ⟨by decide +kernel, by decide +kernel, by decide +kernel, ?_⟩
  intro ⟨_, _, _, _, parsed, uploaded⟩
  have solid := solid_of_uploaded parsed uploaded
  exact absurd (solid ' ' (by decide)) (by decide)

end Agreement

end Crashomon.Proofs.StoreAgreement
