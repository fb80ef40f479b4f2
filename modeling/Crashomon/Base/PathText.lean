import Crashomon.Base.DiskLinks
import Crashomon.Base.PythonText

/-! Resolved paths as text. That one text begins with another is not that one path lies below the
other: the last name of the shorter may go on. -/

namespace Crashomon.Location

/-- `str(path)` of a resolved path. -/
def str (location : Location) : Text := PurePath.str ⟨['/'], location⟩

def Below (root location : Location) : Prop := root <+: location ∧ root ≠ location

/-- The location is at or below one whose name goes on where the root's ends. -/
def Neighbour (root location : Location) : Prop :=
  ∃ parent name more rest, root = parent ++ [name] ∧ more ≠ [] ∧ location = parent ++ (name ++ more) :: rest

/-- A component of a parsed path. -/
def Solid (name : Text) : Prop := name ≠ [] ∧ '/' ∉ name

section Names

theorem solid_components {text name : Text} (member : name ∈ PurePath.components text) : Solid name := by
  obtain ⟨piece, kept⟩ := List.mem_filter.mp member
  refine ⟨(of_decide_eq_true kept).1, fun slash => ?_⟩
  have free := Python.solid_of_mem_splitOnP piece '/' slash
  exact absurd free (by decide)

theorem parse_component {name : Text} (nonempty : name ≠ []) (dot : name ≠ ['.']) (free : '/' ∉ name) :
    PurePath.parse name = ⟨[], [name]⟩ := by
  have relative : PurePath.splitRoot name = ([], name) := by
    unfold PurePath.splitRoot
    split
    next => exact absurd List.mem_cons_self free
    next => exact absurd List.mem_cons_self free
    next => exact absurd List.mem_cons_self free
    next => rfl
  have whole : name.splitOn '/' = [name] := by
    apply List.splitOn_eq_singleton_of_beq_eq_false
    intro character member
    apply beq_false_of_ne
    rintro rfl
    exact free member
  rw [PurePath.parse, relative, PurePath.components, whole]
  simp [nonempty, dot]

theorem parse_name {name : Text} (proper : IsName name) : PurePath.parse name = ⟨[], [name]⟩ :=
  parse_component proper.1 proper.2.1 proper.2.2.2.1

theorem join_name (path : PurePath) {name : Text} (proper : IsName name) : path.join (PurePath.parse name) = path.child name := by
  rw [parse_name proper]
  rfl

theorem solid_of_isName {name : Text} (proper : IsName name) : Solid name := ⟨proper.1, proper.2.2.2.1⟩

variable {disk : Disk} {depth : Nat} {here last cwd : Location} {name : Text}

theorem solid_startFrom (solid : ∀ name ∈ here, Solid name) (path : PurePath) : ∀ name ∈ path.startFrom here, Solid name := by
  unfold PurePath.startFrom
  split
  next => exact fun name member => absurd member List.not_mem_nil
  next => exact solid

/-- What every step keeps holds in the end. -/
theorem solid_foldlM {step : Location → Text → Option Location} {path : List Text} (names : ∀ name ∈ path, Solid name)
    (keeps : ∀ {here name next}, (∀ name ∈ here, Solid name) → Solid name → step here name = some next → ∀ name ∈ next, Solid name)
    (solid : ∀ name ∈ here, Solid name) (ended : path.foldlM step here = some last) : ∀ name ∈ last, Solid name := by
  induction path generalizing here with
  | nil => exact Option.some.inj ended ▸ solid
  | cons name path ih =>
    rw [List.foldlM_cons] at ended
    obtain ⟨next, first, later⟩ := Option.bind_eq_some_iff.mp ended
    exact ih (fun name member => names name (List.mem_cons_of_mem _ member)) (keeps solid (names name List.mem_cons_self) first) later

theorem solid_snoc (solid : ∀ name ∈ here, Solid name) (proper : Solid name) : ∀ other ∈ here ++ [name], Solid other := by
  intro other member
  rcases List.mem_append.mp member with earlier | same
  · exact solid other earlier
  · rw [List.mem_singleton.mp same]
    exact proper

theorem solid_dropLast (solid : ∀ name ∈ here, Solid name) : ∀ name ∈ here.dropLast, Solid name :=
  fun name member => solid name ((List.dropLast_sublist here).subset member)

theorem solid_resolveName (solid : ∀ name ∈ here, Solid name) (proper : Solid name)
    (led : disk.resolveName depth here name = some last) : ∀ name ∈ last, Solid name := by
  induction depth generalizing here name last with
  | zero =>
    rw [Disk.resolveName] at led
    split at led
    next => exact Option.some.inj led ▸ solid_dropLast solid
    next =>
      split at led
      next => cases led
      next => exact Option.some.inj led ▸ solid_snoc solid proper
  | succ depth ih =>
    rw [Disk.resolveName] at led
    split at led
    next => exact Option.some.inj led ▸ solid_dropLast solid
    next =>
      split at led
      next text _ =>
        refine solid_foldlM (fun name member => ?_) ih (solid_startFrom solid _) led
        rw [PurePath.parse_tail] at member
        exact solid_components member
      next => exact Option.some.inj led ▸ solid_snoc solid proper

theorem solid_resolve {path : PurePath} (names : ∀ name ∈ path.tail, Solid name) (resolved : disk.resolve cwd path = some last) :
    ∀ name ∈ last, Solid name := by
  unfold Disk.resolve at resolved
  split at resolved
  next begins => exact solid_foldlM names solid_resolveName (fun name member => solid_of_isName (Disk.isName_of_mem begins.1 member)) resolved
  next => exact absurd resolved nofun

end Names

section Prefixes
variable {root location : Location}

/-- The text of a location, one name after the other; the root has none. -/
def slashed (location : Location) : Text := location.flatMap ('/' :: ·)

@[simp] theorem slashed_nil : slashed [] = [] := rfl

theorem slashed_cons (name : Text) (location : Location) : slashed (name :: location) = '/' :: (name ++ slashed location) := rfl

theorem str_cons (name : Text) (location : Location) : str (name :: location) = slashed (name :: location) := by
  have joined : '/' :: ['/'].intercalate (name :: location) = slashed (name :: location) := by
    induction location generalizing name with
    | nil => simp [slashed, List.intercalate]
    | cons next location ih =>
      have later := ih next
      rw [slashed_cons, ← later]
      simp [List.intercalate]
  exact joined

theorem slashed_append (first second : Location) : slashed (first ++ second) = slashed first ++ slashed second :=
  List.flatMap_append

theorem prefix_of_slashed {first second : Text} {rest later : Location} (solid : '/' ∉ first) (free : '/' ∉ second) (more : rest ≠ []) :
    slashed (first :: rest) <+: slashed (second :: later) ↔ first = second ∧ slashed rest <+: slashed later := by
  obtain ⟨name, rest, rfl⟩ := List.exists_cons_of_ne_nil more
  rw [slashed_cons first, slashed_cons second, List.cons_prefix_cons, and_iff_right rfl]
  constructor
  · intro ⟨tail, same⟩
    cases later with
    | nil =>
      have slash : '/' ∈ second := by
        rw [slashed_nil, List.append_nil] at same
        rw [← same, slashed_cons]
        simp
      exact absurd slash free
    | cons next later =>
      rw [slashed_cons, slashed_cons, List.append_assoc, List.cons_append] at same
      obtain ⟨names, rests⟩ := split_at_first solid free same
      exact ⟨names, tail, by rw [slashed_cons, slashed_cons, List.cons_append, rests]⟩
  · intro ⟨names, tail, same⟩
    rw [names]
    exact ⟨tail, by rw [List.append_assoc, same]⟩

theorem prefix_of_free {first second rest : Text} (solid : '/' ∉ first) :
    first <+: second ++ '/' :: rest ↔ first <+: second := by
  constructor
  · intro begins
    rcases List.prefix_or_prefix_of_prefix begins (List.prefix_append second ('/' :: rest)) with within | beyond
    · exact within
    · obtain ⟨more, rfl⟩ := beyond
      cases more with
      | nil => exact ⟨[], by simp⟩
      | cons character more =>
        rw [List.prefix_append_right_inj, List.cons_prefix_cons] at begins
        rw [begins.1] at solid
        exact absurd (List.mem_append_right _ List.mem_cons_self) solid
  · exact fun begins => begins.trans (List.prefix_append _ _)

theorem slashed_single {name other : Text} {later : Location} (solid : '/' ∉ name) :
    slashed [name] <+: slashed (other :: later) ↔ name <+: other := by
  rw [slashed_cons, slashed_cons, slashed_nil, List.append_nil, List.cons_prefix_cons, and_iff_right rfl]
  cases later with
  | nil => rw [slashed_nil, List.append_nil]
  | cons next later => exact prefix_of_free solid

theorem neighbour_cons {name : Text} {root location : Location} (more : root ≠ []) :
    Neighbour (name :: root) (name :: location) ↔ Neighbour root location := by
  constructor
  · intro ⟨parent, last, rest, later, same, longer, place⟩
    cases parent with
    | nil =>
      obtain ⟨_, empty⟩ := List.cons.inj same
      exact absurd empty more
    | cons first parent =>
      obtain ⟨rfl, tails⟩ := List.cons.inj same
      exact ⟨parent, last, rest, later, tails, longer, (List.cons.inj place).2⟩
  · intro ⟨parent, last, rest, later, same, longer, place⟩
    refine ⟨name :: parent, last, rest, later, ?_, longer, ?_⟩
    · rw [same, List.cons_append]
    · rw [place, List.cons_append]

theorem slashed_prefix_iff (present : root ≠ []) (solid : ∀ name ∈ root, Solid name) (names : ∀ name ∈ location, Solid name) :
    slashed root <+: slashed location ↔ root <+: location ∨ Neighbour root location := by
  induction root generalizing location with
  | nil => exact absurd rfl present
  | cons name root ih =>
    have proper := solid name List.mem_cons_self
    cases location with
    | nil =>
      refine iff_of_false (fun begins => ?_) ?_
      · rw [slashed_cons] at begins
        exact absurd (List.prefix_nil.mp begins) (by simp)
      · rintro (within | ⟨_, _, _, _, _, _, impossible⟩)
        · exact absurd (List.prefix_nil.mp within) (by simp)
        · exact absurd impossible (by simp)
    | cons other location =>
      cases root with
      | nil =>
        rw [slashed_single proper.2]
        constructor
        · rintro ⟨more, rfl⟩
          by_cases whole : more = []
          · exact Or.inl ⟨location, by rw [whole, List.append_nil, List.singleton_append]⟩
          · exact Or.inr ⟨[], name, more, location, rfl, whole, rfl⟩
        · rintro (within | ⟨parent, last, more, rest, same, _, place⟩)
          · exact ⟨[], by rw [(List.cons_prefix_cons.mp within).1, List.append_nil]⟩
          · have ends : [] ++ [name] = parent ++ [last] := same
            obtain ⟨rfl, single⟩ := List.append_inj' ends rfl
            rw [(List.cons.inj place).1, List.singleton_inj.mp single]
            exact List.prefix_append _ _
      | cons next root =>
        have free := names other List.mem_cons_self
        rw [prefix_of_slashed proper.2 free.2 (by simp), ih (by simp) (fun name member => solid name (List.mem_cons_of_mem _ member))
          fun name member => names name (List.mem_cons_of_mem _ member), List.cons_prefix_cons]
        by_cases same : name = other
        · rw [same, neighbour_cons (by simp)]
          simp
        · refine iff_of_false (fun both => same both.1) ?_
          rintro (within | ⟨parent, last, more, rest, whole, _, place⟩)
          · exact same within.1
          · cases parent with
            | nil => exact absurd (List.cons.inj whole).2 (by simp)
            | cons first parent => exact same ((List.cons.inj whole).1.trans (List.cons.inj place).1.symm)

/-- What `startswith` says of two resolved paths. -/
theorem str_prefix_iff (solid : ∀ name ∈ root, Solid name) (names : ∀ name ∈ location, Solid name) :
    root.str <+: location.str ↔ root <+: location ∨ Neighbour root location := by
  cases root with
  | nil =>
    refine iff_of_true ?_ (Or.inl List.nil_prefix)
    cases location with
    | nil => exact List.prefix_refl _
    | cons name location =>
      rw [str_cons, slashed_cons]
      exact ⟨_, rfl⟩
  | cons name root =>
    rw [str_cons]
    cases location with
    | nil =>
      refine iff_of_false (fun begins => ?_) ?_
      · have empty := (solid name List.mem_cons_self).1
        obtain ⟨character, rest, rfl⟩ := List.exists_cons_of_ne_nil empty
        rw [slashed_cons] at begins
        exact absurd begins.length_le (by simp [str, PurePath.str, List.intercalate])
      · rintro (within | ⟨_, _, _, _, _, _, impossible⟩)
        · exact absurd (List.prefix_nil.mp within) (by simp)
        · exact absurd impossible (by simp)
    | cons other location =>
      rw [str_cons]
      exact slashed_prefix_iff (by simp) solid names

/-- With a slash after it, the shorter text is that of a path above the other. -/
theorem str_slash_prefix_iff (solid : ∀ name ∈ root, Solid name) (names : ∀ name ∈ location, Solid name) :
    root.str ++ ['/'] <+: location.str ↔ root ≠ [] ∧ Below root location := by
  constructor
  · intro begins
    have present : root ≠ [] := by
      rintro rfl
      cases location with
      | nil => exact absurd begins (by decide)
      | cons name location =>
        obtain ⟨character, rest, rfl⟩ := List.exists_cons_of_ne_nil (names name List.mem_cons_self).1
        rw [str_cons, slashed_cons] at begins
        have slash := (List.cons_prefix_cons.mp (List.cons_prefix_cons.mp begins).2).1
        exact (names _ List.mem_cons_self).2 (slash ▸ List.mem_cons_self)
    refine ⟨present, ?_⟩
    have shorter := (str_prefix_iff solid names).mp ((List.prefix_append _ _).trans begins)
    rcases shorter with within | ⟨parent, name, more, rest, rfl, longer, rfl⟩
    · refine ⟨within, ?_⟩
      rintro rfl
      exact absurd begins.length_le (by simp)
    · have place : parent ++ (name ++ more) :: rest ≠ [] := by simp
      obtain ⟨character, more, rfl⟩ := List.exists_cons_of_ne_nil longer
      obtain ⟨first, tail, firsts⟩ := List.exists_cons_of_ne_nil present
      obtain ⟨other, later, others⟩ := List.exists_cons_of_ne_nil place
      rw [firsts, others, str_cons, str_cons, ← firsts, ← others, slashed_append, slashed_append, List.append_assoc,
        List.prefix_append_right_inj, slashed_cons, slashed_cons, List.cons_append, List.cons_prefix_cons, slashed_nil, List.append_nil,
        List.append_assoc, List.prefix_append_right_inj] at begins
      have slash := (List.cons_prefix_cons.mp begins.2).1
      have member : '/' ∈ name ++ character :: more := List.mem_append_right _ (slash ▸ List.mem_cons_self)
      exact absurd member (names _ (List.mem_append_right _ List.mem_cons_self)).2
  · rintro ⟨present, ⟨rest, rfl⟩, other⟩
    have more : rest ≠ [] := by
      rintro rfl
      exact other (List.append_nil root).symm
    obtain ⟨name, rest, rfl⟩ := List.exists_cons_of_ne_nil more
    obtain ⟨first, tail, rfl⟩ := List.exists_cons_of_ne_nil present
    rw [List.cons_append, str_cons, str_cons, ← List.cons_append, slashed_append, List.prefix_append_right_inj, slashed_cons]
    exact ⟨_, rfl⟩

end Prefixes

end Crashomon.Location
