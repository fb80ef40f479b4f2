import Crashomon.Base.Raising
import Crashomon.Proofs.CrashUploads
import Crashomon.Proofs.DailyCounts
import Crashomon.Web.CrashPages

/-! The crash history over any requests: a crash that an upload has recorded is shown at its number until it is
deleted, and no other crash ever gets the number. -/

namespace Crashomon.Proofs.CrashHistory
open Python Web Web.App Web.Models Web.CrashUpload Web.CrashPages Tools.Analyze

variable {site : Site} {database : Database}

/-- The number that an upload is answered with. -/
def recorded : Response → Option Nat
  | .reply (.crashDetail crashId) | .reply (.created crashId) => some crashId
  | _ => none

/-- The rows are in the order of their numbers, which the sequence has passed. -/
structure Sequential (database : Database) : Prop where
  increasing : database.rows.Pairwise fun first second => first.id < second.id
  passed : ∀ crash ∈ database.rows, crash.id ≤ database.sequence

/-- The row of an upload: the report of its minidump, and what the report says of the process and the signal. -/
structure RowOf (site : Site) (ts : Text) (file : Upload) (walk : Walk) (crash : Crash) : Prop where
  analyzed : ∃ report, crashReport (analyzeMinidump site.interpreter site.stackwalk walk (some file.data)) = .ok report ∧
    toText report = some crash.report
  named : (crash.process, crash.signal) = extractMeta crash.report
  signed : crash.signature = computeSignature site.sha256 crash.process crash.signal crash.report
  received : crash.ts = ts
  saved : crash.dmpPath = uploadPath site.tmpDir (site.secureFilename file.filename)

/-- A request uploads a minidump, which leaves the row. -/
def Uploads (site : Site) (request : Request) (crash : Crash) : Prop :=
  ∃ ts file walk, (request = .uploadCrash ts (some file) walk ∨ request = .apiUploadCrash ts (some file) walk) ∧
    RowOf site ts file walk crash

theorem Uploads.ne_delete {request : Request} {crash : Crash} (uploads : Uploads site request crash) (crashId : Nat) :
    request ≠ .deleteCrash crashId := by
  obtain ⟨ts, file, walk, rfl | rfl, _⟩ := uploads
  · exact Request.noConfusion
  · exact Request.noConfusion

/-- What one request does to the table. -/
inductive Change (site : Site) (database : Database) (request : Request) (response : Response) (next : Database) : Prop where
  | records (crash : Crash) (number : crash.id = database.sequence + 1) (rows : next.rows = database.rows ++ [crash])
      (sequence : next.sequence = crash.id) (answered : recorded response = some crash.id) (uploads : Uploads site request crash)
  | deletes (crashId : Nat) (same : request = .deleteCrash crashId) (silent : recorded response = none)
      (rows : ∃ kept : Crash → Bool, next.rows = database.rows.filter kept ∧ (∀ crash, crash.id ≠ crashId → kept crash = true) ∧
        (crashId ≤ maxInteger → ∀ crash, crash.id = crashId → kept crash = false))
      (sequence : next.sequence = database.sequence)
  | nothing (unchanged : next = database) (silent : recorded response = none) (other : ∀ crashId, request ≠ .deleteCrash crashId)

theorem insertCrash_cases (site : Site) (database : Database) (ts : Text) (report : PyStr) (dmpPath : Text) :
    (∃ raised, insertCrash site database ts report dmpPath = (.error raised, database)) ∨
      ∃ text crash, toText report = some text ∧
        crash = insertedCrash site.sha256 (database.sequence + 1) ts (extractMeta text).1 (extractMeta text).2 0 text dmpPath ∧
        insertCrash site database ts report dmpPath = (.ok crash.id, ⟨database.rows ++ [crash], crash.id⟩) := by
  unfold insertCrash
  cases toText report with
  | none => exact Or.inl ⟨_, rfl⟩
  | some text => exact Or.inr ⟨text, _, rfl, rfl, rfl⟩

/-- An upload adds one row and answers with its number, or it adds none. -/
theorem upload_cases (replies : Replies) (site : Site) (database : Database) (ts : Text) (file : Option Upload) (walk : Walk) :
    (∃ given crash, file = some given ∧ crash.id = database.sequence + 1 ∧ RowOf site ts given walk crash ∧
      upload replies site database ts file walk = ⟨.ok (replies.stored crash.id), ⟨database.rows ++ [crash], crash.id⟩⟩) ∨
    (upload replies site database ts file walk).database = database ∧
      ∀ reply, (upload replies site database ts file walk).result = .ok reply → reply = replies.noFile ∨ reply = replies.invalidFilename := by
  unfold upload
  cases file with
  | none => exact Or.inr ⟨rfl, fun reply answered => Or.inl (Except.ok.inj answered).symm⟩
  | some file =>
    dsimp only
    split
    next => exact Or.inr ⟨rfl, fun reply answered => Or.inl (Except.ok.inj answered).symm⟩
    next =>
      split
      next => exact Or.inr ⟨rfl, fun reply answered => Or.inr (Except.ok.inj answered).symm⟩
      next =>
        split
        next => exact Or.inr ⟨rfl, fun reply answered => by cases answered⟩
        next report analyzed =>
          obtain ⟨raised, fails⟩ | ⟨text, crash, printed, rfl, inserts⟩ := insertCrash_cases site database ts report
            (uploadPath site.tmpDir (site.secureFilename file.filename))
          · rw [fails]
            exact Or.inr ⟨rfl, fun reply answered => by cases answered⟩
          · rw [inserts]
            exact Or.inl ⟨file, _, rfl, rfl, ⟨⟨report, analyzed, printed⟩, rfl, rfl, rfl, rfl⟩, rfl⟩

/-- Both upload routes, by what they answer. -/
theorem uploaded_change (replies : Replies) (silent : recorded (.reply replies.noFile) = none ∧ recorded (.reply replies.invalidFilename) = none)
    (stored : ∀ crashId, recorded (.reply (replies.stored crashId)) = some crashId) (ts : Text) (file : Option Upload) (walk : Walk)
    {request : Request} (uploads : request = .uploadCrash ts file walk ∨ request = .apiUploadCrash ts file walk) :
    Change site database request (uploaded (upload replies site database ts file walk)).1
      (uploaded (upload replies site database ts file walk)).2 := by
  obtain ⟨given, crash, rfl, number, row, inserts⟩ | ⟨same, replied⟩ := upload_cases replies site database ts file walk
  · rw [inserts]
    exact .records crash number rfl rfl (stored crash.id) ⟨ts, given, walk, uploads, row⟩
  · have other : ∀ crashId, request ≠ .deleteCrash crashId := by
      intro crashId
      obtain rfl | rfl := uploads
      · exact Request.noConfusion
      · exact Request.noConfusion
    refine .nothing same ?_ other
    unfold uploaded
    cases answered : (upload replies site database ts file walk).result with
    | error raised => rfl
    | ok reply =>
      obtain rfl | rfl := replied reply answered
      · exact silent.1
      · exact silent.2

theorem recorded_of_except {page : Except Raised Response} (silent : ∀ response, page = .ok response → recorded response = none) :
    recorded (.of page) = none := by
  cases page with
  | error raised => rfl
  | ok response => exact silent response rfl

theorem handle_change (site : Site) (database : Database) (request : Request) :
    Change site database request (handle site database request).1 (handle site database request).2 := by
  cases request with
  | uploadCrash ts file walk =>
    exact uploaded_change _ ⟨rfl, rfl⟩ (fun _ => rfl) ts file walk (Or.inl rfl)
  | apiUploadCrash ts file walk =>
    exact uploaded_change _ ⟨rfl, rfl⟩ (fun _ => rfl) ts file walk (Or.inr rfl)
  | deleteCrash crashId =>
    by_cases large : maxInteger < crashId
    · have refused : handle site database (.deleteCrash crashId) = (.serverError .overflowError, database) := by
        rw [handle, deleteCrash, if_pos large]
        rfl
      rw [refused]
      refine .deletes crashId rfl rfl ⟨fun _ => true, ?_, fun _ _ => rfl, fun small => absurd small (Nat.not_le_of_lt large)⟩ rfl
      exact (List.filter_eq_self.mpr fun _ _ => rfl).symm
    · have deleted : handle site database (.deleteCrash crashId) =
          (.toCrashes, { database with rows := database.rows.filter fun crash => crash.id ≠ crashId }) := by
        rw [handle, deleteCrash, if_neg large]
        rfl
      rw [deleted]
      exact .deletes crashId rfl rfl ⟨fun crash => crash.id ≠ crashId, rfl, by simp, by simp⟩ rfl
  | crashDetail crashId =>
    refine .nothing rfl (recorded_of_except ?_) (fun _ => Request.noConfusion)
    intro response answered
    unfold detailPage getCrash at answered
    split at answered
    · cases answered
    · cases found : database.rows.find? fun crash => crash.id = crashId <;> rw [found] at answered <;> cases answered <;> rfl
  | crashes sql process signal page =>
    refine .nothing rfl (recorded_of_except ?_) (fun _ => Request.noConfusion)
    intro response answered
    unfold crashesPage at answered
    obtain ⟨rows, _, answered⟩ := Raising.bind_ok.mp answered
    cases answered
    rfl
  | groups sql => exact .nothing rfl rfl (fun _ => Request.noConfusion)
  | dashboard sql =>
    refine .nothing rfl ?_ (fun _ => Request.noConfusion)
    show recorded (.of (dashboardPage sql database.rows)) = none
    apply recorded_of_except
    intro response answered
    unfold dashboardPage at answered
    obtain ⟨recent, _, answered⟩ := Raising.bind_ok.mp answered
    obtain ⟨counts, _, answered⟩ := Raising.bind_ok.mp answered
    cases answered
    rfl

theorem Sequential.change {request : Request} {response : Response} {next : Database} (sequential : Sequential database)
    (change : Change site database request response next) : Sequential next := by
  cases change with
  | records crash number rows sequence =>
    refine ⟨?_, ?_⟩
    · rw [rows, List.pairwise_append]
      refine ⟨sequential.increasing, List.pairwise_singleton _ _, ?_⟩
      intro first member second last
      have passed := sequential.passed first member
      rw [List.mem_singleton.mp last]
      omega
    · intro first member
      rw [rows, List.mem_append, List.mem_singleton] at member
      rw [sequence]
      obtain old | rfl := member
      · have passed := sequential.passed first old
        omega
      · exact Nat.le_refl _
  | deletes crashId _ _ rows sequence =>
    obtain ⟨kept, rows, _⟩ := rows
    refine ⟨?_, ?_⟩
    · rw [rows]
      exact sequential.increasing.filter _
    · intro crash member
      rw [rows] at member
      rw [sequence]
      exact sequential.passed crash (List.mem_of_mem_filter member)
  | nothing unchanged => rwa [unchanged]

theorem after_cons (request : Request) (rest : List Request) :
    after site database (request :: rest) = after site (handle site database request).2 rest := rfl

theorem after_append (first second : List Request) :
    after site database (first ++ second) = after site (after site database first) second := List.foldl_append

theorem after_sequential (sequential : Sequential database) (requests : List Request) : Sequential (after site database requests) := by
  induction requests generalizing database with
  | nil => exact sequential
  | cons request rest ih => exact ih (sequential.change (handle_change site database request))

/-- Numbers that the sequence has passed stay passed. -/
theorem sequence_le (requests : List Request) : database.sequence ≤ (after site database requests).sequence := by
  induction requests generalizing database with
  | nil => exact Nat.le_refl _
  | cons request rest ih =>
    refine Nat.le_trans ?_ ih
    show database.sequence ≤ (handle site database request).2.sequence
    cases handle_change site database request with
    | records crash number _ sequence =>
      rw [sequence, number]
      exact Nat.le_succ _
    | deletes _ _ _ _ sequence => rw [sequence]
    | nothing unchanged => rw [unchanged]

/-- The row of a number that the sequence has passed changes only where it is deleted. -/
theorem mem_change {crash : Crash} {request : Request} (small : crash.id ≤ maxInteger) (passed : crash.id ≤ database.sequence) :
    crash ∈ (handle site database request).2.rows ↔ crash ∈ database.rows ∧ request ≠ .deleteCrash crash.id := by
  cases handle_change site database request with
  | records added number rows _ _ uploads =>
    rw [rows, List.mem_append, List.mem_singleton]
    refine ⟨?_, fun both => Or.inl both.1⟩
    rintro (old | rfl)
    · exact ⟨old, uploads.ne_delete crash.id⟩
    · omega
  | deletes crashId same _ kept =>
    obtain ⟨kept, rows, others, gone⟩ := kept
    rw [rows, List.mem_filter, same]
    by_cases hit : crash.id = crashId
    · subst hit
      simp [gone small]
    · have apart : Request.deleteCrash crashId ≠ .deleteCrash crash.id := fun both => hit (Request.deleteCrash.inj both).symm
      simp [others crash hit, apart]
  | nothing unchanged _ other =>
    rw [unchanged]
    simp [other crash.id]

theorem mem_after {crash : Crash} {requests : List Request} (small : crash.id ≤ maxInteger) (passed : crash.id ≤ database.sequence) :
    crash ∈ (after site database requests).rows ↔ crash ∈ database.rows ∧ .deleteCrash crash.id ∉ requests := by
  induction requests generalizing database with
  | nil => simp [after]
  | cons request rest ih =>
    have further : crash.id ≤ (handle site database request).2.sequence :=
      Nat.le_trans passed (sequence_le [request])
    rw [after_cons, ih further, mem_change small passed, List.mem_cons, not_or, and_assoc, ne_comm, ne_eq]

/-- No two rows have one number. -/
theorem Sequential.unique (sequential : Sequential database) {first second : Crash} (one : first ∈ database.rows)
    (other : second ∈ database.rows) (same : first.id = second.id) : first = second := by
  have distinct : (database.rows.map Crash.id).Nodup :=
    List.pairwise_map.mpr (sequential.increasing.imp fun less => Nat.ne_of_lt less)
  exact List.inj_on_of_nodup_map distinct one other same

theorem find_iff (sequential : Sequential database) {crash : Crash} :
    database.rows.find? (fun row => row.id = crash.id) = some crash ↔ crash ∈ database.rows := by
  constructor
  · exact List.mem_of_find?_eq_some
  · intro member
    cases found : database.rows.find? fun row => row.id = crash.id with
    | none => simpa using List.find?_eq_none.mp found crash member
    | some row =>
      have same : row.id = crash.id := by simpa using List.find?_some found
      rw [sequential.unique (List.mem_of_find?_eq_some found) member same]

/-- What the page of a number shows. -/
theorem detail_eq {crashId : Nat} (small : crashId ≤ maxInteger) :
    (handle site database (.crashDetail crashId)).1 =
      (database.rows.find? fun row => row.id = crashId).elim .notFound .detail := by
  rw [handle, detailPage, getCrash, if_neg (Nat.not_lt.mpr small)]
  rfl

/-- What holds of a crash that a request has recorded: it is the row of the upload, its number is larger than all before it and smaller than all that
are given later, and the page of the number shows it until a request deletes it. -/
structure KeptUntilDeleted (site : Site) (start : Database) (earlier : List Request) (request : Request) (crash : Crash) :
    Prop where
  uploaded : Uploads site request crash
  added : (handle site (after site start earlier) request).2.rows = (after site start earlier).rows ++ [crash]
  above : (after site start earlier).sequence < crash.id
  below : ∀ (between : List Request) (further : Request) (other : Nat),
    recorded (handle site (after site start (earlier ++ request :: between)) further).1 = some other → crash.id < other
  shown : ∀ later, .deleteCrash crash.id ∉ later →
    (handle site (after site start (earlier ++ request :: later)) (.crashDetail crash.id)).1 = .detail crash
  gone : ∀ later, .deleteCrash crash.id ∈ later →
    (handle site (after site start (earlier ++ request :: later)) (.crashDetail crash.id)).1 = .notFound

/-- The crash of an upload, between any requests. -/
theorem recorded_until_deleted (site : Site) (start : Database) (sequential : Sequential start) (earlier : List Request)
    (request : Request) (crashId : Nat) (small : crashId ≤ maxInteger)
    (answered : recorded (handle site (after site start earlier) request).1 = some crashId) :
    ∃ crash, crash.id = crashId ∧ KeptUntilDeleted site start earlier request crash := by
  cases handle_change site (after site start earlier) request with
  | deletes _ _ silent => simp [silent] at answered
  | nothing _ silent => simp [silent] at answered
  | records crash number rows sequence named uploads =>
    have same : crash.id = crashId := Option.some.inj (named.symm.trans answered)
    subst same
    have passed : crash.id ≤ (handle site (after site start earlier) request).2.sequence := sequence.ge
    have present : crash ∈ (handle site (after site start earlier) request).2.rows := by simp [rows]
    refine ⟨crash, rfl, uploads, rows, by omega, ?below, ?shown, ?gone⟩
    case below =>
      intro between further other given
      rw [after_append, after_cons] at given
      have grown : crash.id ≤ (after site (handle site (after site start earlier) request).2 between).sequence :=
        Nat.le_trans passed (sequence_le between)
      cases handle_change site (after site (handle site (after site start earlier) request).2 between) further with
      | records next number _ _ named =>
        have same : next.id = other := Option.some.inj (named.symm.trans given)
        omega
      | deletes _ _ silent => simp [silent] at given
      | nothing _ silent => simp [silent] at given
    case shown =>
      intro later kept
      have ordered : Sequential (after site start (earlier ++ request :: later)) := after_sequential sequential _
      rw [detail_eq small]
      rw [after_append, after_cons] at ordered ⊢
      rw [(find_iff ordered).mpr ((mem_after small passed).mpr ⟨present, kept⟩)]
      rfl
    case gone =>
      intro later deleted
      rw [detail_eq small, after_append, after_cons]
      have none : (after site (handle site (after site start earlier) request).2 later).rows.find?
          (fun row => row.id = crash.id) = none := by
        rw [List.find?_eq_none]
        intro row there same
        have number : row.id = crash.id := by simpa using same
        have kept := (mem_after (number.symm ▸ small) (number.symm ▸ passed)).mp there
        rw [number] at kept
        exact kept.2 deleted
      rw [none]
      rfl

section Sorting

/-- A stable sort is an ORDER BY. -/
def sorting {Row : Type} (follows : Row → Row → Prop) [DecidableRel follows] [Std.Total follows] [IsTrans Row follows] :
    OrderBy Row follows where
  order rows := rows.insertionSort follows
  perm rows := List.perm_insertionSort follows rows
  sorted rows := List.pairwise_insertionSort follows rows

instance totalNewest : Std.Total fun first second : Crash => before first.ts second.ts = false where
  total first second := by
    rw [← Bool.not_eq_true, ← Bool.not_eq_true, DailyCounts.before_iff, DailyCounts.before_iff, not_lt, not_lt]
    exact le_total second.ts first.ts

instance transNewest : IsTrans Crash fun first second => before first.ts second.ts = false where
  trans first second third one other := by
    rw [← Bool.not_eq_true, DailyCounts.before_iff, not_lt] at one other ⊢
    exact le_trans other one

instance totalCount {Row : Type} (count : Row → Nat) : Std.Total fun first second => count second ≤ count first where
  total first second := Nat.le_total (count second) (count first)

instance transCount {Row : Type} (count : Row → Nat) : IsTrans Row fun first second => count second ≤ count first where
  trans _ _ _ one other := Nat.le_trans other one

/-- Stable sorts, the first row of a group, and no dates. -/
def plainSql : Sql where
  dates := ⟨fun _ => none, fun _ => 0, fun absent => by cases absent⟩
  newest := sorting _
  frequent := sorting _
  largest := sorting _
  bare first _ := first
  bare_mem _ _ := List.mem_cons_self

end Sorting

open CrashUploads (plainSite plainUpload)

/-- The upload of the tests, where no minidump-stackwalk is installed. -/
def plainRequest : Request := .apiUploadCrash [] (some plainUpload) .notFound

/-- The first crash has been deleted again; the next one gets the number behind it. -/
theorem second_crash_kept :
    ∃ crash, crash.id = 2 ∧ KeptUntilDeleted plainSite ⟨[], 0⟩ [plainRequest, .deleteCrash 1] plainRequest crash := by
  refine recorded_until_deleted plainSite ⟨[], 0⟩ ⟨List.Pairwise.nil, ?_⟩ [plainRequest, .deleteCrash 1] plainRequest 2
    (by decide) rfl
  intro crash member
  cases member

end Crashomon.Proofs.CrashHistory
