import Crashomon.Web.Uploads

/-! What the crash rows can rely on. All uploads share one directory, so a save or an unlink
can hit the file of an older row; where none does, each row has its file and its report. -/

namespace Crashomon.Proofs.UploadFiles
open Bytes Python Web.Models Web.App Web.Uploads

variable {Circumstances : Type} {setup : Setup Circumstances}

/-- The report is one that an analysis of the bytes gives. -/
def ReportFrom (setup : Setup Circumstances) (uploaded : Buffer) (report : Text) : Prop :=
  ∃ call, reportOf (setup.analyzeMinidump call (some uploaded) (some uploaded)) = .ok report

/-- Every row's file holds the bytes uploaded for it, and its report was computed from them. -/
def RowsSound (setup : Setup Circumstances) (state : State) : Prop :=
  ∀ row ∈ state.rows, state.files row.1.dmpPath = some row.2 ∧ ReportFrom setup row.2 row.1.report

/-- The file of a crash upload under way. -/
def crashFile : Phase → Option Text
  | .saved path _ | .walked path _ _ | .analysed path _ _ => some path
  | _ => none

def ReliedOn (state : State) (path : Text) : Prop :=
  (∃ row ∈ state.rows, row.1.dmpPath = path) ∨ ∃ request, crashFile (state.phase request) = some path

/-- The file that a step saves or unlinks, and what it leaves there. -/
def touched (setup : Setup Circumstances) (state : State) (action : Action Circumstances) : Option (Text × Option Buffer) :=
  match action.call, state.phase action.request with
  | .saveCrash filename data interrupted, .idle | .saveSymbols filename data interrupted, .idle =>
    if filename = [] ∨ setup.secureFilename filename = [] then none
    else some (uploadPath setup.tmpDir (setup.secureFilename filename), some (interrupted.getD data))
  | .unlink true, .importing path => some (path, none)
  | _, _ => none

/-- The step leaves the bytes of each file that a row or a crash upload under way relies on. -/
def Spares (setup : Setup Circumstances) (state : State) (action : Action Circumstances) : Prop :=
  ∀ path content, touched setup state action = some (path, content) → ReliedOn state path → state.files path = content

def PhaseSound (setup : Setup Circumstances) (files : Text → Option Buffer) : Phase → Prop
  | .saved path uploaded => files path = some uploaded
  | .walked path uploaded seen => files path = some uploaded ∧ seen = some uploaded
  | .analysed path uploaded report => files path = some uploaded ∧ ReportFrom setup uploaded report
  | _ => True

structure Sound (setup : Setup Circumstances) (state : State) : Prop where
  rows : RowsSound setup state
  phases : ∀ request, PhaseSound setup state.files (state.phase request)

section Steps
variable {before after state : State}

theorem PhaseSound.congr {phase : Phase} {files others : Text → Option Buffer} (sound : PhaseSound setup files phase)
    (same : ∀ path, crashFile phase = some path → others path = files path) : PhaseSound setup others phase := by
  cases phase with
  | saved path uploaded => exact (same path rfl).trans sound
  | walked path uploaded seen => exact ⟨(same path rfl).trans sound.1, sound.2⟩
  | analysed path uploaded report => exact ⟨(same path rfl).trans sound.1, sound.2⟩
  | idle | importing | done => trivial

/-- Writing what is there already, or a file that nothing relies on. -/
theorem Sound.put (sound : Sound setup state) {path : Text} {content : Option Buffer}
    (spared : ReliedOn state path → state.files path = content) : Sound setup (state.put path content) := by
  have kept : ∀ other, ReliedOn state other → (state.put path content).files other = state.files other := by
    intro other relied
    by_cases same : other = path
    · subst same
      exact (Function.update_self ..).trans (spared relied).symm
    · exact Function.update_of_ne same ..
  refine ⟨?_, ?_⟩
  · intro row member
    obtain ⟨file, report⟩ := sound.rows row member
    exact ⟨(kept _ (Or.inl ⟨row, member, rfl⟩)).trans file, report⟩
  · intro request
    apply (sound.phases request).congr
    intro other uses
    exact kept other (Or.inr ⟨request, uses⟩)

theorem Sound.enter (sound : Sound setup state) (request : Nat) {phase : Phase} (good : PhaseSound setup state.files phase) :
    Sound setup (state.enter request phase) := by
  refine ⟨sound.rows, ?_⟩
  intro other
  by_cases same : other = request
  · subst same
    simpa [State.enter] using good
  · simpa [State.enter, Function.update_of_ne same] using sound.phases other

theorem Sound.withRows (sound : Sound setup state) {rows : List (Crash × Buffer)} {sequence : Nat}
    (each : ∀ row ∈ rows, state.files row.1.dmpPath = some row.2 ∧ ReportFrom setup row.2 row.1.report) :
    Sound setup { state with rows := rows, sequence := sequence } :=
  ⟨each, sound.phases⟩

theorem Sound.save (sound : Sound setup state) {request : Nat} {filename : Text} {data : Buffer} {interrupted : Option Buffer}
    {next : Text → Phase}
    (spared : ¬ (filename = [] ∨ setup.secureFilename filename = []) →
      ReliedOn state (uploadPath setup.tmpDir (setup.secureFilename filename)) →
      state.files (uploadPath setup.tmpDir (setup.secureFilename filename)) = some (interrupted.getD data))
    (good : ∀ path files, files path = some data → PhaseSound setup files (next path)) :
    Sound setup (save setup state request filename data interrupted next) := by
  unfold Web.Uploads.save
  dsimp only
  split
  next => exact sound.enter request trivial
  next named =>
    cases interrupted with
    | none =>
      apply (sound.put (spared named)).enter
      apply good
      exact Function.update_self ..
    | some content => exact (sound.put (spared named)).enter request trivial

theorem step_sound {action : Action Circumstances} (sound : Sound setup before) (spares : Spares setup before action)
    (stepped : step setup before action = some after) : Sound setup after := by
  obtain ⟨request, call⟩ := action
  unfold Spares at spares
  cases call <;> cases phase : before.phase request <;> simp only [step, phase, reduceCtorEq] at stepped
  case saveCrash.idle filename data interrupted =>
    cases stepped
    apply sound.save
    · intro named relied
      exact spares _ _ (by simp only [touched, phase, if_neg named]) relied
    · intro path files holds
      exact holds
  case saveSymbols.idle filename data interrupted =>
    cases stepped
    apply sound.save
    · intro named relied
      exact spares _ _ (by simp only [touched, phase, if_neg named]) relied
    · intro path files holds
      trivial
  case stackwalk.saved path uploaded =>
    cases stepped
    have file : before.files path = some uploaded := by simpa [phase, PhaseSound] using sound.phases request
    exact sound.enter request ⟨file, file⟩
  case annotate.walked call path uploaded seen =>
    obtain ⟨file, read⟩ : before.files path = some uploaded ∧ seen = some uploaded := by
      simpa [phase, PhaseSound] using sound.phases request
    split at stepped
    next report computed =>
      cases stepped
      rw [read, file] at computed
      exact sound.enter request ⟨file, call, computed⟩
    next =>
      cases stepped
      exact sound.enter request trivial
  case insert.analysed ts works path uploaded report =>
    obtain ⟨file, computed⟩ : before.files path = some uploaded ∧ ReportFrom setup uploaded report := by
      simpa [phase, PhaseSound] using sound.phases request
    cases stepped
    refine Sound.enter (sound.withRows ?_) request (by trivial)
    intro row member
    split at member
    next =>
      rcases List.mem_append.mp member with old | new
      · exact sound.rows row old
      · rw [List.mem_singleton.mp new]
        exact ⟨file, computed⟩
    next => exact sound.rows row member
  case unlink.importing removes path =>
    cases stepped
    cases removes with
    | true => exact (sound.put (spares path none (by simp only [touched, phase]))).enter request trivial
    | false => exact sound.enter request trivial
  case deleteCrash.idle id =>
    cases stepped
    refine Sound.enter (sound.withRows ?_) request (by trivial)
    intro row member
    exact sound.rows row (List.mem_of_mem_filter member)
  case refuse.idle =>
    cases stepped
    exact sound.enter request trivial

end Steps

theorem initial_sound (files : Text → Option Buffer) : Sound setup (initial files) :=
  ⟨fun _ member => absurd member List.not_mem_nil, fun _ => trivial⟩

/-- In every run whose saves and unlinks change no file that is relied on, each row has its file. -/
theorem rows_keep_files {files : Text → Option Buffer} {actions : List (Action Circumstances)} {last : State}
    (spared : Transition.Throughout (step setup) (Spares setup) (initial files) actions)
    (ran : run setup (initial files) actions = some last) : RowsSound setup last :=
  (Transition.run_keeps (fun sound spares stepped => step_sound sound spares stepped) (initial_sound files) spared ran).rows

/-- A server without minidump-stackwalk; its file names are clean already. -/
def withoutStackwalk : Setup Unit where
  tmpDir := "/var/crashomon/tmp".toList
  secureFilename := id
  analyzeMinidump _ _ _ := .error (.runtimeError "minidump-stackwalk not found: 'minidump-stackwalk'".toList)
  sha256 _ := Vector.replicate 32 0

def upload (request : Nat) (filename : String) (data : Buffer) : List (Action Unit) :=
  [⟨request, .saveCrash filename.toList data none⟩, ⟨request, .stackwalk⟩, ⟨request, .annotate ()⟩,
    ⟨request, .insert "2026-04-20T12:00:00Z".toList true⟩]

theorem single_upload_sound :
    ∃ last, run withoutStackwalk (initial fun _ => none) (upload 0 "a.dmp" [1]) = some last ∧
      last.rows.map Prod.snd = [[1]] ∧ RowsSound withoutStackwalk last := by
  have spared : Transition.Throughout (step withoutStackwalk) (Spares withoutStackwalk) (initial fun _ => none)
      (upload 0 "a.dmp" [1]) := by
    refine ⟨?_, fun saved stepped => ⟨?_, fun walked stepped => ⟨?_, fun read stepped => ⟨?_, fun _ _ => trivial⟩⟩⟩⟩
    · rintro path content writes (⟨row, member, _⟩ | ⟨request, uses⟩)
      · cases member
      · cases uses
    all_goals
      intro path content writes
      cases writes
  exact ⟨_, rfl, rfl, rows_keep_files spared rfl⟩

/-- A second upload under the same name replaces the file of the first row. -/
theorem same_name_loses_file :
    ¬ ∀ (actions : List (Action Unit)) (last : State),
      run withoutStackwalk (initial fun _ => none) actions = some last → RowsSound withoutStackwalk last := by
  intro sound
  have both := sound (upload 0 "a.dmp" [1] ++ upload 1 "a.dmp" [2]) _ rfl
  have first := (both _ List.mem_cons_self).1
  cases first

section FreshNames
variable {before after state : State}

def savedPath (setup : Setup Circumstances) (state : State) (action : Action Circumstances) : Option Text :=
  match action.call, state.phase action.request with
  | .saveCrash filename _ _, .idle | .saveSymbols filename _ _, .idle =>
    if filename = [] ∨ setup.secureFilename filename = [] then none
    else some (uploadPath setup.tmpDir (setup.secureFilename filename))
  | _, _ => none

/-- An upload is saved under a name that no row and no request under way has. -/
def Fresh (setup : Setup Circumstances) (state : State) (action : Action Circumstances) : Prop :=
  ∀ path, savedPath setup state action = some path →
    ¬ ReliedOn state path ∧ ∀ request, state.phase request ≠ .importing path

def Apart (state : State) : Prop := ∀ request path, state.phase request = .importing path → ¬ ReliedOn state path

theorem Apart.spares (apart : Apart state) {action : Action Circumstances} (fresh : Fresh setup state action) :
    Spares setup state action := by
  intro path content writes relied
  unfold touched at writes
  split at writes
  next filename data interrupted called phase =>
    split at writes
    next => cases writes
    next named =>
      cases writes
      exact absurd relied (fresh _ (by simp only [savedPath, called, phase, if_neg named])).1
  next filename data interrupted called phase =>
    split at writes
    next => cases writes
    next named =>
      cases writes
      exact absurd relied (fresh _ (by simp only [savedPath, called, phase, if_neg named])).1
  next called phase =>
    cases writes
    exact absurd relied (apart _ _ phase)
  next => cases writes

theorem relied_enter {request : Nat} {phase : Phase} {path : Text} (relied : ReliedOn (state.enter request phase) path) :
    ReliedOn state path ∨ crashFile phase = some path := by
  rcases relied with row | ⟨other, uses⟩
  · exact Or.inl (Or.inl row)
  · by_cases same : other = request
    · subst same
      exact Or.inr (by simpa [State.enter] using uses)
    · exact Or.inl (Or.inr ⟨other, by simpa [State.enter, Function.update_of_ne same] using uses⟩)

theorem importing_enter {request other : Nat} {phase : Phase} {path : Text}
    (importing : (state.enter request phase).phase other = .importing path) :
    state.phase other = .importing path ∨ phase = .importing path := by
  by_cases same : other = request
  · subst same
    exact Or.inr (by simpa [State.enter] using importing)
  · exact Or.inl (by simpa [State.enter, Function.update_of_ne same] using importing)

theorem Apart.enter (apart : Apart state) {request : Nat} {phase : Phase}
    (crash : ∀ path, crashFile phase = some path → ReliedOn state path ∨ ∀ other, state.phase other ≠ .importing path)
    (symbols : ∀ path, phase = .importing path → ¬ ReliedOn state path) : Apart (state.enter request phase) := by
  intro other path importing relied
  rcases importing_enter importing with old | new
  · rcases relied_enter relied with before | uses
    · exact apart other path old before
    · rcases crash path uses with before | free
      · exact apart other path old before
      · exact free other old
  · rcases relied_enter relied with before | uses
    · exact symbols path new before
    · rw [new] at uses
      cases uses

theorem Apart.ends (apart : Apart state) (request : Nat) : Apart (state.enter request .done) := by
  apply apart.enter
  · intro path uses
    cases uses
  · intro path importing
    cases importing

theorem Apart.save (apart : Apart state) {request : Nat} {filename : Text} {data : Buffer} {interrupted : Option Buffer}
    {next : Text → Phase}
    (good : ¬ (filename = [] ∨ setup.secureFilename filename = []) → ∀ {files : Text → Option Buffer},
      Apart (({ state with files := files } : State).enter request (next (uploadPath setup.tmpDir (setup.secureFilename filename))))) :
    Apart (save setup state request filename data interrupted next) := by
  have moved {files : Text → Option Buffer} : Apart { state with files := files } := apart
  unfold Web.Uploads.save
  dsimp only
  split
  next => exact apart.ends request
  next named =>
    cases interrupted with
    | none => exact good named
    | some content => exact Apart.ends moved request

theorem Apart.withRows (apart : Apart state) {rows : List (Crash × Buffer)} {sequence : Nat}
    (old : ∀ row ∈ rows, ReliedOn state row.1.dmpPath) : Apart { state with rows := rows, sequence := sequence } := by
  intro request path importing relied
  rcases relied with ⟨row, member, same⟩ | uses
  · exact apart request path importing (same ▸ old row member)
  · exact apart request path importing (Or.inr uses)

theorem step_apart {action : Action Circumstances} (apart : Apart before) (fresh : Fresh setup before action)
    (stepped : step setup before action = some after) : Apart after := by
  obtain ⟨request, call⟩ := action
  have goesOn {path : Text} {phase : Phase} (old : crashFile (before.phase request) = some path)
      (new : crashFile phase = some path) : Apart (before.enter request phase) := by
    apply apart.enter
    · intro other uses
      exact Or.inl (Or.inr ⟨request, by rw [old, ← new, uses]⟩)
    · intro other importing
      rw [importing] at new
      cases new
  cases call <;> cases phase : before.phase request <;> simp only [step, phase, reduceCtorEq] at stepped
  case saveCrash.idle filename data interrupted =>
    cases stepped
    apply apart.save
    intro named files
    obtain ⟨_, free⟩ := fresh (uploadPath setup.tmpDir (setup.secureFilename filename))
      (by simp only [savedPath, phase, if_neg named])
    apply Apart.enter apart
    · intro path uses
      cases uses
      exact Or.inr free
    · intro path importing
      cases importing
  case saveSymbols.idle filename data interrupted =>
    cases stepped
    apply apart.save
    intro named files
    obtain ⟨unused, _⟩ := fresh (uploadPath setup.tmpDir (setup.secureFilename filename))
      (by simp only [savedPath, phase, if_neg named])
    apply Apart.enter apart
    · intro path uses
      cases uses
    · intro path importing
      cases importing
      exact unused
  case stackwalk.saved path uploaded =>
    cases stepped
    exact goesOn (by rw [phase]; rfl) rfl
  case annotate.walked call path uploaded seen =>
    split at stepped
    next report computed =>
      cases stepped
      exact goesOn (by rw [phase]; rfl) rfl
    next =>
      cases stepped
      exact apart.ends request
  case insert.analysed ts works path uploaded report =>
    cases stepped
    refine Apart.ends (apart.withRows ?_) request
    intro row member
    split at member
    next =>
      rcases List.mem_append.mp member with old | new
      · exact Or.inl ⟨row, old, rfl⟩
      · rw [List.mem_singleton.mp new]
        exact Or.inr ⟨request, by rw [phase]; rfl⟩
    next => exact Or.inl ⟨row, member, rfl⟩
  case unlink.importing removes path =>
    cases stepped
    have moved {files : Text → Option Buffer} : Apart { before with files := files } := apart
    cases removes with
    | true => exact Apart.ends moved request
    | false => exact apart.ends request
  case deleteCrash.idle id =>
    cases stepped
    refine Apart.ends (apart.withRows ?_) request
    intro row member
    exact Or.inl ⟨row, List.mem_of_mem_filter member, rfl⟩
  case refuse.idle =>
    cases stepped
    exact apart.ends request

/-- Uploads under names of their own are enough. -/
theorem fresh_names_keep_files {files : Text → Option Buffer} {actions : List (Action Circumstances)} {last : State}
    (fresh : Transition.Throughout (step setup) (Fresh setup) (initial files) actions)
    (ran : run setup (initial files) actions = some last) : RowsSound setup last := by
  have start : Sound setup (initial files) ∧ Apart (initial files) := by
    refine ⟨initial_sound files, ?_⟩
    intro request path importing
    cases importing
  have step_held {before after : State} {action : Action Circumstances} (held : Sound setup before ∧ Apart before)
      (fresh : Fresh setup before action) (stepped : step setup before action = some after) : Sound setup after ∧ Apart after :=
    ⟨step_sound held.1 (held.2.spares fresh) stepped, step_apart held.2 fresh stepped⟩
  exact (Transition.run_keeps step_held start fresh ran).1.rows

end FreshNames

end Crashomon.Proofs.UploadFiles
