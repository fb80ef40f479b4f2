import Crashomon.Base.FileTree

/-! Making a directory with its parents. The call makes what is missing on the way
of the path, from the top down, and stops at the first obstacle. -/

namespace Crashomon.FileTree

variable {tree : FileTree}

/-- The call fails before it has made a directory. -/
def Unmade (tree : FileTree) (start : Location) (path : List Text) : Prop :=
  tree.missing start path = [] ∨ ∃ first, (tree.missing start path).head? = some first ∧ tree.refuses first = true

/-- How making a directory with its parents ends. -/
inductive Settled (tree : FileTree) (start : Location) (path : List Text) : Except OsError Unit × List Location → Prop where
  | made {here : Location} {made : List Location} (placed : tree.place start path = some here)
      (allowed : ∀ location ∈ tree.missing start path, tree.refuses location = false)
      (same : ∀ location, location ∈ made ↔ location ∈ tree.missing start path) : Settled tree start path (.ok (), made)
  | stopped {error : OsError} {made : List Location}
      (stuck : tree.place start path = none ∨ ∃ location ∈ tree.missing start path, tree.refuses location = true)
      (nothing : made = [] ↔ Unmade tree start path) (within : ∀ location ∈ made, location ∈ tree.missing start path) :
      Settled tree start path (.error error, made)

/-- How making one directory in an existing one ends. -/
inductive Last (tree : FileTree) (here : Location) (name : Text) : Except OsError Unit × List Location → Prop where
  | present {next : Location} (placed : tree.place here [name] = some next) (nothing : tree.missing here [name] = []) :
      Last tree here name (.ok (), [])
  | created (absent : tree.entry here name = none) (placed : tree.place here [name] = some (here ++ [name]))
      (wanted : tree.missing here [name] = [here ++ [name]]) (allowed : tree.refuses (here ++ [name]) = false) :
      Last tree here name (.ok (), [here ++ [name]])
  | refused (absent : tree.entry here name = none) (wanted : tree.missing here [name] = [here ++ [name]])
      (refuses : tree.refuses (here ++ [name]) = true) : Last tree here name (.error .refused, [])
  | blocked {error : OsError} (blocked : tree.place here [name] = none) (nothing : tree.missing here [name] = []) :
      Last tree here name (.error error, [])

variable {start here : Location} {path : List Text} {name : Text}

theorem makeDirectory_snoc (clean : ¬ HasNull (path ++ [name])) :
    tree.makeDirectory start (path ++ [name]) = (tree.walk start path >>= fun here =>
      if name = dotdot ∨ tree.entry here name ≠ none then .error .fileExists
      else if tree.refuses (here ++ [name]) then .error .refused
      else .ok (here ++ [name])) := by
  rw [makeDirectory, if_neg clean, List.getLast?_concat, List.dropLast_concat]

theorem isDirectory_iff : tree.isDirectory start path ↔ ∃ last, tree.walk start path = .ok last := by
  unfold isDirectory
  cases tree.walk start path with
  | ok last => exact ⟨fun _ => ⟨last, rfl⟩, fun _ => rfl⟩
  | error error => exact ⟨nofun, nofun⟩

theorem mkdir_last (clean : ¬ HasNull (path ++ [name])) (walked : tree.walk start path = .ok here) :
    Last tree here name (tree.mkdir start (path ++ [name])) := by
  obtain ⟨nothing, placed⟩ := nothing_missing_of_walk walked
  have further := @place_snoc tree start path name
  have wanted := @missing_snoc tree start path name
  rw [placed] at further wanted
  rw [nothing] at wanted
  simp only [Option.bind_some, Option.elim_some, List.nil_append] at further wanted
  have directory : tree.isDirectory start (path ++ [name]) ↔
      ∃ last, tree.place here [name] = some last ∧ tree.missing here [name] = [] := by
    rw [isDirectory_iff, ← further, ← wanted]
    constructor
    · rintro ⟨last, found⟩
      exact ⟨last, (nothing_missing_of_walk found).2, (nothing_missing_of_walk found).1⟩
    · rintro ⟨last, found, complete⟩
      exact ⟨last, walk_of_nothing_missing complete found⟩
  have call : tree.makeDirectory start (path ++ [name]) =
      if name = dotdot ∨ tree.entry here name ≠ none then .error .fileExists
      else if tree.refuses (here ++ [name]) then .error .refused
      else .ok (here ++ [name]) := by
    rw [makeDirectory_snoc clean, walked]
    rfl
  -- An existing name is told apart by whether it is a directory.
  have occupied (exist : name = dotdot ∨ tree.entry here name ≠ none) : tree.mkdir start (path ++ [name]) =
      if tree.isDirectory start (path ++ [name]) then (.ok (), []) else (.error .fileExists, []) := by
    rw [mkdir, call, if_pos exist]
  by_cases climbs : name = dotdot
  · have there : tree.place here [name] = some here.dropLast := if_pos climbs
    have complete : tree.missing here [name] = [] := if_pos climbs
    rw [occupied (Or.inl climbs), if_pos (directory.mpr ⟨_, there, complete⟩)]
    exact .present there complete
  cases found : tree.entry here name with
  | none =>
    have there : tree.place here [name] = some (here ++ [name]) := by simp only [place, climbs, found, if_false]
    have new : tree.missing here [name] = [here ++ [name]] := by simp only [missing, climbs, found, if_false]
    have free : ¬ (name = dotdot ∨ tree.entry here name ≠ none) := by simp [climbs, found]
    rw [mkdir, call, if_neg free]
    cases refuses : tree.refuses (here ++ [name]) with
    | true =>
      have outside : ¬ tree.isDirectory start (path ++ [name]) := by
        rw [directory, new]
        rintro ⟨_, _, impossible⟩
        exact List.cons_ne_nil _ _ impossible
      rw [if_pos rfl]
      dsimp only
      rw [if_neg outside]
      exact .refused found new refuses
    | false => exact .created found there new refuses
  | some entry =>
    have exist : name = dotdot ∨ tree.entry here name ≠ none := Or.inr (by simp [found])
    have complete : tree.missing here [name] = [] := by
      cases entry <;> simp only [missing, climbs, found, if_false]
    rw [occupied exist]
    cases entry with
    | directory next =>
      have there : tree.place here [name] = some next := by simp only [place, climbs, found, if_false]
      rw [if_pos (directory.mpr ⟨_, there, complete⟩)]
      exact .present there complete
    | file _ | dangling _ =>
      have nowhere : tree.place here [name] = none := by simp only [place, climbs, found, if_false]
      have outside : ¬ tree.isDirectory start (path ++ [name]) := by
        rw [directory, nowhere]
        rintro ⟨_, impossible, _⟩
        cases impossible
      rw [if_neg outside]
      exact .blocked nowhere complete

theorem settled_snoc {made : List Location} (placed : tree.place start path = some here)
    (allowed : ∀ location ∈ tree.missing start path, tree.refuses location = false)
    (same : ∀ location, location ∈ made ↔ location ∈ tree.missing start path)
    {outcome : Except OsError Unit × List Location} (last : Last tree here name outcome) :
    Settled tree start (path ++ [name]) (outcome.1, made ++ outcome.2) := by
  have further := @place_snoc tree start path name
  have wanted := @missing_snoc tree start path name
  rw [placed, Option.bind_some] at further
  rw [placed, Option.elim_some] at wanted
  -- A call that fails at the last name has made nothing only where nothing was missing before it.
  have nothing (first : tree.missing start path = [] → Unmade tree start (path ++ [name])) :
      made = [] ↔ Unmade tree start (path ++ [name]) := by
    cases seen : tree.missing start path with
    | nil =>
      refine iff_of_true (List.eq_nil_iff_forall_not_mem.mpr fun location member => ?_) (first seen)
      exact absurd ((same location).mp member) (by rw [seen]; exact List.not_mem_nil)
    | cons head rest =>
      have member : head ∈ tree.missing start path := by rw [seen]; exact List.mem_cons_self
      refine iff_of_false (List.ne_nil_of_mem ((same head).mpr member)) ?_
      rw [seen] at wanted
      rintro (complete | ⟨other, front, refuses⟩)
      · rw [wanted] at complete
        exact List.cons_ne_nil _ _ complete
      · rw [wanted] at front
        cases front
        rw [allowed head member] at refuses
        exact Bool.false_ne_true refuses
  cases last with
  | present there complete =>
    rw [complete, List.append_nil] at wanted
    exact .made (further.trans there) (wanted ▸ allowed) (by simpa only [wanted, List.append_nil] using same)
  | created _ there new permitted =>
    rw [new] at wanted
    refine .made (further.trans there) ?_ ?_
    · rw [wanted]
      exact List.forall_mem_append.mpr ⟨allowed, List.forall_mem_singleton.mpr permitted⟩
    · intro location
      rw [wanted, List.mem_append, List.mem_append, same]
  | refused _ new refuses =>
    rw [new] at wanted
    dsimp only
    rw [List.append_nil]
    refine .stopped (Or.inr ⟨_, ?_, refuses⟩) (nothing fun complete => Or.inr ⟨here ++ [name], ?_, refuses⟩) ?_
    · rw [wanted]
      exact List.mem_append_right _ (List.mem_singleton_self _)
    · rw [wanted, complete]
      rfl
    · intro location member
      rw [wanted]
      exact List.mem_append_left _ ((same location).mp member)
  | blocked nowhere complete =>
    rw [complete, List.append_nil] at wanted
    dsimp only
    rw [List.append_nil]
    refine .stopped (Or.inl (further.trans nowhere)) (nothing fun before => Or.inl (wanted.trans before)) ?_
    intro location member
    rw [wanted]
    exact (same location).mp member

theorem mkdir_settled (clean : ¬ HasNull (path ++ [name])) (walked : tree.walk start path = .ok here) :
    Settled tree start (path ++ [name]) (tree.mkdir start (path ++ [name])) := by
  obtain ⟨nothing, placed⟩ := nothing_missing_of_walk walked
  have none_missing (location : Location) : location ∈ ([] : List Location) ↔ location ∈ tree.missing start path := by
    rw [nothing]
  have allowed : ∀ location ∈ tree.missing start path, tree.refuses location = false := by
    rw [nothing]
    exact List.forall_mem_nil _
  exact settled_snoc placed allowed none_missing (mkdir_last clean walked)

/-- In the tree with some directories made, a name is one of these or what it was. -/
theorem last_adding {made : List Location} {outcome : Except OsError Unit × List Location}
    (last : Last (tree.adding made) here name outcome) :
    Last tree here name outcome ∨ here ++ [name] ∈ made ∧ name ≠ dotdot ∧ outcome = (.ok (), []) := by
  by_cases climbs : name = dotdot
  · have there : tree.place here [name] = some here.dropLast := if_pos climbs
    have thereToo : (tree.adding made).place here [name] = some here.dropLast := if_pos climbs
    have complete : tree.missing here [name] = [] := if_pos climbs
    have completeToo : (tree.adding made).missing here [name] = [] := if_pos climbs
    cases last with
    | present _ _ => exact Or.inl (.present there complete)
    | created _ _ new _ => cases completeToo.symm.trans new
    | refused _ new _ => cases completeToo.symm.trans new
    | blocked nowhere _ => cases thereToo.symm.trans nowhere
  by_cases member : here ++ [name] ∈ made
  · have entered : (tree.adding made).entry here name = some (.directory (here ++ [name])) := if_pos member
    cases last with
    | present _ _ => exact Or.inr ⟨member, climbs, rfl⟩
    | created absent _ _ _ => cases entered.symm.trans absent
    | refused absent _ _ => cases entered.symm.trans absent
    | blocked nowhere _ =>
      simp only [place, climbs, entered, if_false] at nowhere
      cases nowhere
  · have kept : (tree.adding made).entry here name = tree.entry here name := if_neg member
    have samePlace : (tree.adding made).place here [name] = tree.place here [name] := by simp only [place, kept]
    have sameMissing : (tree.adding made).missing here [name] = tree.missing here [name] := by simp only [missing, kept]
    left
    cases last with
    | present there complete => exact .present (samePlace ▸ there) (sameMissing ▸ complete)
    | created absent there new allowed => exact .created (kept ▸ absent) (samePlace ▸ there) (sameMissing ▸ new) allowed
    | refused absent new refuses => exact .refused (kept ▸ absent) (sameMissing ▸ new) refuses
    | blocked nowhere complete => exact .blocked (samePlace ▸ nowhere) (sameMissing ▸ complete)

theorem unmade_snoc (stuck : tree.place start path = none ∨ ∃ location ∈ tree.missing start path, tree.refuses location = true) :
    Unmade tree start (path ++ [name]) ↔ Unmade tree start path := by
  have wanted := @missing_snoc tree start path name
  unfold Unmade
  rcases stuck with nowhere | ⟨location, member, _⟩
  · rw [nowhere, Option.elim_none, List.append_nil] at wanted
    rw [wanted]
  · cases seen : tree.missing start path with
    | nil =>
      rw [seen] at member
      exact absurd member List.not_mem_nil
    | cons head rest =>
      rw [seen, List.cons_append] at wanted
      rw [wanted]
      simp only [List.cons_ne_nil, List.head?_cons]

/-- A parent that is there is not made. -/
theorem mkdirParents_of_walk (clean : ¬ HasNull (path ++ [name])) (walked : tree.walk start path = .ok here) :
    tree.mkdirParents start (name :: path.reverse) = tree.mkdir start (path ++ [name]) := by
  rw [mkdirParents, List.reverse_cons, List.reverse_reverse]
  split
  next notFound =>
    rw [makeDirectory_snoc clean, walked] at notFound
    change (if name = dotdot ∨ tree.entry here name ≠ none then (.error .fileExists : Except OsError Location)
      else if tree.refuses (here ++ [name]) then .error .refused else .ok (here ++ [name])) = .error .fileNotFound at notFound
    split at notFound
    next => exact nomatch notFound
    next => split at notFound <;> exact nomatch notFound
  next => rfl

theorem mkdir_absent (clean : ¬ HasNull (path ++ [name])) (walked : tree.walk start path = .ok here) (plain : name ≠ dotdot)
    (absent : tree.entry here name = none) (allowed : tree.refuses (here ++ [name]) = false) :
    tree.mkdir start (path ++ [name]) = (.ok (), [here ++ [name]]) := by
  have wanted : tree.missing here [name] = [here ++ [name]] := by simp only [missing, plain, absent, if_false]
  generalize outcome : tree.mkdir start (path ++ [name]) = outcome
  cases outcome ▸ mkdir_last clean walked with
  | present _ nothing => cases nothing.symm.trans wanted
  | created => rfl
  | refused _ _ refuses => cases refuses.symm.trans allowed
  | blocked _ nothing => cases nothing.symm.trans wanted

theorem mkdir_present (clean : ¬ HasNull (path ++ [name])) (walked : tree.walk start path = .ok here) (plain : name ≠ dotdot)
    {next : Location} (entered : tree.entry here name = some (.directory next)) :
    tree.mkdir start (path ++ [name]) = (.ok (), []) := by
  have there : tree.place here [name] = some next := by simp only [place, plain, entered, if_false]
  generalize outcome : tree.mkdir start (path ++ [name]) = outcome
  cases outcome ▸ mkdir_last clean walked with
  | present => rfl
  | created absent => cases absent.symm.trans entered
  | refused absent => cases absent.symm.trans entered
  | blocked nowhere => cases nowhere.symm.trans there

/-- Every missing directory is made, or the call stops at the first obstacle. -/
theorem mkdirParents_settled {names : List Text} (clean : ¬ HasNull names) :
    Settled tree start names.reverse (tree.mkdirParents start names) := by
  induction names with
  | nil => exact .made rfl (fun _ member => absurd member List.not_mem_nil) (fun _ => Iff.rfl)
  | cons name above ih =>
    have cleanAbove : ¬ HasNull above := fun ⟨other, member, null⟩ => clean ⟨other, List.mem_cons_of_mem _ member, null⟩
    have cleanPath : ¬ HasNull (above.reverse ++ [name]) := by
      rw [← List.reverse_cons]
      exact fun ⟨other, member, null⟩ => clean ⟨other, List.mem_reverse.mp member, null⟩
    have further := @place_snoc tree start above.reverse name
    have wanted := @missing_snoc tree start above.reverse name
    cases walked : tree.walk start above.reverse with
    | ok here =>
      have made := mkdirParents_of_walk cleanPath walked
      rw [List.reverse_reverse] at made
      rw [List.reverse_cons, made]
      exact mkdir_settled cleanPath walked
    | error error =>
      have failed : tree.makeDirectory start (above.reverse ++ [name]) = .error error := by
        rw [makeDirectory_snoc cleanPath, walked]
        rfl
      rw [mkdirParents, List.reverse_cons]
      rcases walk_error walked with rfl | rfl
      · rw [failed]
        have settled := ih cleanAbove
        generalize tree.mkdirParents start above = outcome at settled ⊢
        cases settled with
        | @stopped error made stuck nothing within =>
          have earlier (location : Location) (member : location ∈ tree.missing start above.reverse) :
              location ∈ tree.missing start (above.reverse ++ [name]) := by
            rw [wanted]
            exact List.mem_append_left _ member
          refine .stopped ?_ (nothing.trans (unmade_snoc stuck).symm) fun location member => earlier _ (within location member)
          rcases stuck with nowhere | ⟨location, member, refuses⟩
          · exact Or.inl (by rw [further, nowhere]; rfl)
          · exact Or.inr ⟨location, earlier location member, refuses⟩
        | @made here made placed allowed same =>
          have absent (here : Location) (name : Text) (member : here ++ [name] ∈ made) : tree.entry here name = none :=
            absent_of_missing ((same _).mp member)
          have walkedMade := walk_adding absent (fun location => (same location).mpr) placed
          rcases last_adding (mkdir_last cleanPath walkedMade) with last | ⟨member, stays, again⟩
          · exact settled_snoc placed allowed same last
          · -- The path comes back to a directory that it has made.
            have gone := absent here name member
            have there : tree.place here [name] = some (here ++ [name]) := by simp only [place, stays, gone, if_false]
            have new : tree.missing here [name] = [here ++ [name]] := by simp only [missing, stays, gone, if_false]
            rw [placed, Option.bind_some] at further
            rw [placed, Option.elim_some, new] at wanted
            dsimp only
            rw [again, List.append_nil]
            refine .made (further.trans there) ?_ ?_
            · rw [wanted]
              exact List.forall_mem_append.mpr
                ⟨allowed, List.forall_mem_singleton.mpr (allowed _ ((same _).mp member))⟩
            · intro location
              rw [wanted, List.mem_append, List.mem_singleton, same]
              exact ⟨Or.inl, fun found => found.elim id fun same_location => same_location ▸ (same _).mp member⟩
      · rw [failed]
        obtain ⟨nowhere, complete⟩ := blocked_of_notADirectory walked
        rw [nowhere, Option.bind_none] at further
        rw [nowhere, complete] at wanted
        have outside : ¬ tree.isDirectory start (above.reverse ++ [name]) := by
          rw [isDirectory_iff]
          rintro ⟨last, found⟩
          cases further.symm.trans (nothing_missing_of_walk found).2
        rw [mkdir, failed]
        dsimp only
        rw [if_neg outside]
        exact .stopped (Or.inl further) (iff_of_true rfl (Or.inl wanted)) (List.forall_mem_nil _)

end Crashomon.FileTree
