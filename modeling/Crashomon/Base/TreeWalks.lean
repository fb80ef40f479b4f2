import Crashomon.Base.FileTree
import Mathlib.Data.List.Induction

/-! What the walks along paths keep, and which of them are left when a tree loses entries. -/

namespace Crashomon.FileTree

/-- What a path names. The last name alone may be missing. -/
def target (tree : FileTree) (start : Location) (path : List Text) : Entry :=
  match path.getLast? with
  | none => .directory start
  | some name =>
    match tree.walk start path.dropLast with
    | .error _ => .dangling none
    | .ok here =>
      if name = dotdot then .directory here.dropLast
      else (tree.entry here name).getD (.dangling (some (here ++ [name])))

/-- The walk along a path looks a name up in a directory. -/
def Looks (tree : FileTree) (start : Location) (path : List Text) (here : Location) (name : Text) : Prop :=
  ∃ before after, path = before ++ name :: after ∧ tree.walk start before = .ok here ∧ name ≠ dotdot

section Walks
variable {tree : FileTree} {start here last : Location} {path : List Text} {name : Text}

theorem walk_append (start : Location) (first second : List Text) :
    tree.walk start (first ++ second) = tree.walk start first >>= fun here => tree.walk here second := by
  induction first generalizing start with
  | nil => rfl
  | cons name first ih =>
    rw [List.cons_append, walk, walk]
    split
    next => exact ih _
    next =>
      split
      next => exact ih _
      next => rfl
      next => rfl
      next => rfl

theorem walk_snoc (walked : tree.walk start path = .ok here) (name : Text) :
    tree.walk start (path ++ [name]) = tree.walk here [name] := by
  rw [walk_append, walked]
  rfl

theorem walk_single (plain : name ≠ dotdot) : tree.walk here [name] = .ok last ↔ tree.entry here name = some (.directory last) := by
  rw [walk, if_neg plain]
  cases found : tree.entry here name with
  | none => simp
  | some entry =>
    cases entry with
    | directory next => simp [walk]
    | file _ => simp
    | dangling _ => simp

theorem walk_dotdot (here : Location) : tree.walk here [dotdot] = .ok here.dropLast := rfl

theorem walk_of_snoc (walked : tree.walk start (path ++ [name]) = .ok last) :
    ∃ here, tree.walk start path = .ok here ∧ tree.walk here [name] = .ok last := by
  rw [walk_append] at walked
  cases first : tree.walk start path with
  | error error =>
    rw [first] at walked
    exact absurd walked nofun
  | ok here =>
    rw [first] at walked
    exact ⟨here, rfl, walked⟩

theorem target_snoc (walked : tree.walk start path = .ok here) (plain : name ≠ dotdot) :
    tree.target start (path ++ [name]) = (tree.entry here name).getD (.dangling (some (here ++ [name]))) := by
  rw [target, List.getLast?_concat]
  dsimp only
  rw [List.dropLast_concat, walked]
  exact if_neg plain

theorem target_eq_directory : tree.target start path = .directory last ↔ tree.walk start path = .ok last := by
  cases path using List.reverseRecOn with
  | nil => simp [target, walk]
  | append_singleton path name =>
    cases walked : tree.walk start path with
    | error error =>
      have failed : tree.walk start (path ++ [name]) = .error error := by
        rw [walk_append, walked]
        rfl
      rw [target, List.getLast?_concat]
      dsimp only
      rw [List.dropLast_concat, walked, failed]
      simp
    | ok here =>
      rw [walk_snoc walked]
      by_cases climbs : name = dotdot
      · rw [target, List.getLast?_concat]
        dsimp only
        rw [List.dropLast_concat, walked, walk, if_pos climbs]
        simp [climbs, walk]
      · rw [target_snoc walked climbs, walk_single climbs]
        cases tree.entry here name <;> simp

/-- What going down and up keep holds where a walk ends. -/
theorem walk_keeps {holds : Location → Prop} (up : ∀ {here}, holds here → holds here.dropLast)
    (down : ∀ {here name next}, holds here → tree.entry here name = some (.directory next) → holds next)
    (begins : holds start) (walked : tree.walk start path = .ok last) : holds last := by
  induction path generalizing start with
  | nil => exact Except.ok.inj walked ▸ begins
  | cons name path ih =>
    rw [walk] at walked
    split at walked
    next => exact ih (up begins) walked
    next =>
      split at walked
      next found => exact ih (down begins found) walked
      next => cases walked
      next => cases walked
      next => cases walked

theorem walk_mono {other : FileTree}
    (more : ∀ {here name next}, tree.entry here name = some (.directory next) → other.entry here name = some (.directory next))
    (walked : tree.walk start path = .ok last) : other.walk start path = .ok last := by
  induction path generalizing start with
  | nil => exact walked
  | cons name path ih =>
    rw [walk] at walked ⊢
    split at walked
    next climbs =>
      rw [if_pos climbs]
      exact ih walked
    next plain =>
      rw [if_neg plain]
      split at walked
      next found =>
        rw [more found]
        exact ih walked
      next => cases walked
      next => cases walked
      next => cases walked

/-- A walk done name by name, by a step that goes where the tree leads. -/
theorem foldlM_of_walk {step : Location → Text → Option Location} (up : ∀ here, step here dotdot = some here.dropLast)
    (down : ∀ {here name next}, name ≠ dotdot → tree.entry here name = some (.directory next) → step here name = some next)
    (walked : tree.walk start path = .ok last) : path.foldlM step start = some last := by
  induction path generalizing start with
  | nil => exact congrArg some (Except.ok.inj walked)
  | cons name path ih =>
    rw [walk] at walked
    rw [List.foldlM_cons]
    split at walked
    next climbs =>
      rw [climbs, up]
      exact ih walked
    next plain =>
      split at walked
      next found =>
        rw [down plain found]
        exact ih walked
      next => cases walked
      next => cases walked
      next => cases walked

theorem Looks.append (looks : tree.Looks start path here name) (more : List Text) : tree.Looks start (path ++ more) here name := by
  obtain ⟨before, after, rfl, walked, plain⟩ := looks
  exact ⟨before, after ++ more, by simp, walked, plain⟩

theorem looks_last (walked : tree.walk start path = .ok here) (plain : name ≠ dotdot) : tree.Looks start (path ++ [name]) here name :=
  ⟨path, [], rfl, walked, plain⟩

theorem looks_snoc {there : Location} {next : Text} (looks : tree.Looks start (path ++ [name]) there next) :
    tree.Looks start path there next ∨ tree.walk start path = .ok there ∧ name = next := by
  obtain ⟨before, after, same, walked, plain⟩ := looks
  cases after using List.reverseRecOn with
  | nil =>
    obtain ⟨rfl, single⟩ := List.append_inj' same rfl
    exact Or.inr ⟨walked, List.singleton_inj.mp single⟩
  | append_singleton after final =>
    rw [← List.cons_append, ← List.append_assoc] at same
    obtain ⟨rfl, _⟩ := List.append_inj' same rfl
    exact Or.inl ⟨before, after, rfl, walked, plain⟩

/-- A file at the end of a path is entered from the directory before it. -/
theorem of_target_file {place : Location} (found : tree.target start path = .file place) :
    ∃ before here name, path = before ++ [name] ∧ tree.walk start before = .ok here ∧ name ≠ dotdot ∧
      tree.entry here name = some (.file place) := by
  cases path using List.reverseRecOn with
  | nil => exact absurd found nofun
  | append_singleton path name =>
    cases walked : tree.walk start path with
    | error error =>
      rw [target, List.getLast?_concat] at found
      dsimp only at found
      rw [List.dropLast_concat, walked] at found
      exact absurd found nofun
    | ok here =>
      by_cases climbs : name = dotdot
      · rw [target, List.getLast?_concat] at found
        dsimp only at found
        rw [List.dropLast_concat, walked] at found
        dsimp only at found
        rw [if_pos climbs] at found
        exact absurd found nofun
      · rw [target_snoc walked climbs] at found
        refine ⟨path, here, name, rfl, walked, climbs, ?_⟩
        cases entered : tree.entry here name with
        | none =>
          rw [entered] at found
          exact absurd found nofun
        | some entry =>
          rw [entered, Option.getD_some] at found
          rw [found]

theorem target_file_mono {other : FileTree}
    (directories : ∀ {here name next}, tree.entry here name = some (.directory next) → other.entry here name = some (.directory next))
    (files : ∀ {here name place}, tree.entry here name = some (.file place) → other.entry here name = some (.file place))
    {place : Location} (found : tree.target start path = .file place) : other.target start path = .file place := by
  obtain ⟨before, here, name, rfl, walked, plain, ends⟩ := of_target_file found
  rw [target_snoc (walk_mono directories walked) plain, files ends]
  rfl

/-- A file at the end of a path was looked up there. -/
theorem looks_of_target_file {place : Location} (found : tree.target start path = .file place) :
    ∃ there next, tree.Looks start path there next ∧ tree.entry there next = some (.file place) := by
  obtain ⟨before, here, name, rfl, walked, plain, entered⟩ := of_target_file found
  exact ⟨here, name, looks_last walked plain, entered⟩

theorem foldlM_of_target_file {step : Location → Text → Option Location} {place : Location}
    (up : ∀ here, step here dotdot = some here.dropLast)
    (down : ∀ {here name next}, name ≠ dotdot → tree.entry here name = some (.directory next) → step here name = some next)
    (ends : ∀ {here name}, name ≠ dotdot → tree.entry here name = some (.file place) → step here name = some place)
    (found : tree.target start path = .file place) : path.foldlM step start = some place := by
  obtain ⟨before, here, name, rfl, walked, plain, entered⟩ := of_target_file found
  have last := ends plain entered
  rw [List.foldlM_append, foldlM_of_walk up down walked]
  simpa using last

end Walks

/-- One tree has lost some of another's entries. -/
structure Loses (tree cut : FileTree) (avoids : Location → Text → Prop) : Prop where
  same : ∀ {here name}, avoids here name → cut.entry here name = tree.entry here name
  gone : ∀ {here name}, ¬ avoids here name → cut.entry here name = none ∨ ∃ place, cut.entry here name = some (.dangling place)

namespace Loses
variable {tree cut : FileTree} {avoids : Location → Text → Prop} {start last : Location} {path : List Text}

/-- The walks that are left are those that look none of the lost entries up. -/
theorem walk_iff (loses : Loses tree cut avoids) :
    cut.walk start path = .ok last ↔
      tree.walk start path = .ok last ∧ ∀ here name, tree.Looks start path here name → avoids here name := by
  induction path using List.reverseRecOn generalizing last with
  | nil =>
    refine ⟨fun walked => ⟨walked, fun here name looks => ?_⟩, fun walked => walked.1⟩
    obtain ⟨before, after, impossible, _⟩ := looks
    exact absurd impossible (by simp)
  | append_singleton path name ih =>
    constructor
    · intro walked
      obtain ⟨here, first, final⟩ := walk_of_snoc walked
      obtain ⟨kept, avoided⟩ := ih.mp first
      rw [walk_snoc kept]
      by_cases climbs : name = dotdot
      · rw [climbs, walk_dotdot] at final ⊢
        refine ⟨final, fun there next looks => ?_⟩
        rcases looks_snoc looks with earlier | ⟨_, rfl⟩
        · exact avoided there next earlier
        · obtain ⟨_, _, _, _, plain⟩ := looks
          exact absurd rfl plain
      · have found := (walk_single climbs).mp final
        have avoiding : avoids here name := by
          by_contra lost
          rcases loses.gone lost with none | ⟨place, dangling⟩
          · exact nomatch none.symm.trans found
          · exact nomatch dangling.symm.trans found
        rw [loses.same avoiding] at found
        refine ⟨(walk_single climbs).mpr found, fun there next looks => ?_⟩
        rcases looks_snoc looks with earlier | ⟨other, rfl⟩
        · exact avoided there next earlier
        · exact Except.ok.inj (kept.symm.trans other) ▸ avoiding
    · intro ⟨walked, avoided⟩
      obtain ⟨here, first, final⟩ := walk_of_snoc walked
      rw [walk_snoc (ih.mpr ⟨first, fun there next looks => avoided there next (looks.append [name])⟩)]
      by_cases climbs : name = dotdot
      · rw [climbs, walk_dotdot] at final ⊢
        exact final
      · rw [walk_single climbs, loses.same (avoided here name (looks_last first climbs))]
        exact (walk_single climbs).mp final

theorem target_same (loses : Loses tree cut avoids) (avoided : ∀ here name, tree.Looks start path here name → avoids here name) :
    cut.target start path = tree.target start path := by
  cases path using List.reverseRecOn with
  | nil => rfl
  | append_singleton path name =>
    have earlier : ∀ here name, tree.Looks start path here name → avoids here name :=
      fun here next looks => avoided here next (looks.append [name])
    cases walked : tree.walk start path with
    | error error =>
      have fails : ∃ other, cut.walk start path = .error other := by
        cases left : cut.walk start path with
        | error other => exact ⟨other, rfl⟩
        | ok here => exact nomatch walked.symm.trans (loses.walk_iff.mp left).1
      obtain ⟨other, left⟩ := fails
      simp only [target, List.getLast?_concat, List.dropLast_concat, walked, left]
    | ok here =>
      have left := loses.walk_iff.mpr ⟨walked, earlier⟩
      by_cases climbs : name = dotdot
      · simp only [target, List.getLast?_concat, List.dropLast_concat, walked, left, climbs, if_true]
      · rw [target_snoc walked climbs, target_snoc left climbs, loses.same (avoided here name (looks_last walked climbs))]

theorem target_gone (loses : Loses tree cut avoids) {here : Location} {name : Text} (looks : tree.Looks start path here name)
    (lost : ¬ avoids here name) : ∃ place, cut.target start path = .dangling place := by
  cases path using List.reverseRecOn with
  | nil =>
    obtain ⟨before, after, impossible, _⟩ := looks
    exact absurd impossible (by simp)
  | append_singleton path final =>
    cases left : cut.walk start path with
    | error error =>
      refine ⟨none, ?_⟩
      simp only [target, List.getLast?_concat, List.dropLast_concat, left]
    | ok there =>
      obtain ⟨walked, avoided⟩ := loses.walk_iff.mp left
      rcases looks_snoc looks with earlier | ⟨same, rfl⟩
      · exact absurd (avoided here name earlier) lost
      · obtain rfl := Except.ok.inj (walked.symm.trans same)
        obtain ⟨_, _, _, _, plain⟩ := looks
        rw [target_snoc left plain]
        rcases loses.gone lost with none | ⟨place, dangling⟩
        · exact ⟨_, by rw [none, Option.getD_none]⟩
        · exact ⟨place, by rw [dangling, Option.getD_some]⟩

end Loses

end Crashomon.FileTree
