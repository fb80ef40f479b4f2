import Crashomon.Base.Pages
import Crashomon.Base.PyValue
import Crashomon.Web.CrashUpload

/-! The crash history of web/models.py behind the pages of web/app.py: the queries, and the routes that
add, list, show, group and delete crashes. -/

namespace Crashomon.Web.CrashPages
open Python Models CrashUpload Tools.Analyze

/-- The order of an ORDER BY clause. -/
structure OrderBy (Row : Type) (follows : Row → Row → Prop) where
  order : List Row → List Row
  perm : ∀ rows, (order rows).Perm rows
  sorted : ∀ rows, (order rows).Pairwise follows

structure CrashGroup where
  signature : Text
  process : Text
  signal : Text
  count : Nat
  firstSeen : Text
  lastSeen : Text
  sampleCrashId : Nat
  deriving DecidableEq, Repr

/-- What the queries of one request leave to SQLite: among equal keys it may choose another order for the next request. -/
structure Sql where
  dates : DateFunction
  /-- ORDER BY ts DESC -/
  newest : OrderBy Crash fun first second => before first.ts second.ts = false
  /-- ORDER BY count DESC -/
  frequent : OrderBy (Text × Nat) fun first second => second.2 ≤ first.2
  largest : OrderBy CrashGroup fun first second => second.count ≤ first.count
  /-- The row of a group that its columns without an aggregate are taken from. -/
  bare : (first : Crash) → (rest : List Crash) → Crash
  bare_mem : ∀ first rest, bare first rest ∈ first :: rest

/-- The columns of a list. -/
structure Summary where
  id : Nat
  ts : Text
  process : Text
  signal : Text
  pid : Int
  dmpPath : Text
  deriving DecidableEq, Repr

def Summary.of (crash : Crash) : Summary := ⟨crash.id, crash.ts, crash.process, crash.signal, crash.pid, crash.dmpPath⟩

def Selected (process signal : Text) (crash : Crash) : Prop :=
  (process = [] ∨ crash.process = process) ∧ (signal = [] ∨ crash.signal = signal)

instance (process signal : Text) : DecidablePred (Selected process signal) := fun _ => inferInstanceAs (Decidable (_ ∧ _))

/-- All rows of the query, before its LIMIT. -/
def selection (sql : Sql) (crashes : List Crash) (process signal : Text) : List Crash :=
  sql.newest.order (crashes.filter fun crash => Selected process signal crash)

/-- A SQLite integer has 64 bits. -/
def maxInteger : Nat := 2 ^ 63 - 1

def getCrashes (sql : Sql) (crashes : List Crash) (process signal : Text) (limit offset : Nat) : Except Raised (List Summary) :=
  if maxInteger < limit ∨ maxInteger < offset then .error .overflowError
  else .ok ((Pages.window (selection sql crashes process signal) limit offset).map Summary.of)

def getCrash (crashes : List Crash) (crashId : Nat) : Except Raised (Option Crash) :=
  if maxInteger < crashId then .error .overflowError else .ok (crashes.find? fun crash => crash.id = crashId)

def deleteCrash (database : Database) (crashId : Nat) : Except Raised Unit × Database :=
  if maxInteger < crashId then (.error .overflowError, database)
  else (.ok (), { database with rows := database.rows.filter fun crash => crash.id ≠ crashId })

def getFrequency (sql : Sql) (crashes : List Crash) : List (Text × Nat) :=
  let processes := crashes.map (·.process)
  sql.frequent.order (processes.dedup.map fun process => (process, processes.count process))

/-- MIN(ts) and MAX(ts) -/
def earlier (first second : Text) : Text := if before second first then second else first
def later (first second : Text) : Text := if before first second then second else first

/-- The row of a group, which is not empty. -/
def groupRow (sql : Sql) (signature : Text) : List Crash → Option CrashGroup
  | [] => none
  | first :: rest =>
    let bare := sql.bare first rest
    some ⟨signature, bare.process, bare.signal, (first :: rest).length, rest.foldl (fun seen crash => earlier seen crash.ts) first.ts,
      rest.foldl (fun seen crash => later seen crash.ts) first.ts, rest.foldl (fun seen crash => max seen crash.id) first.id⟩

def getCrashGroups (sql : Sql) (crashes : List Crash) : List CrashGroup :=
  sql.largest.order ((crashGroups crashes).filterMap fun group => (group.head?.map (·.signature)).bind fun signature =>
    groupRow sql signature group)

inductive Request where
  | uploadCrash (ts : Text) (file : Option Upload) (walk : Walk)
  | apiUploadCrash (ts : Text) (file : Option Upload) (walk : Walk)
  | deleteCrash (crashId : Nat)
  | crashDetail (crashId : Nat)
  /-- The arguments process, signal and page of the query. -/
  | crashes (sql : Sql) (process signal : Option Text) (page : Option Text)
  | groups (sql : Sql)
  | dashboard (sql : Sql)

inductive Response where
  | reply (reply : Reply)
  /-- A redirect to the list. -/
  | toCrashes
  | detail (crash : Crash)
  | notFound
  | list (crashes : List Summary) (page : Nat) (hasNext : Bool)
  | groups (crashGroups : List CrashGroup)
  | dashboard (frequency : List (Text × Nat)) (recent : List Summary) (crashGroups : List CrashGroup)
      (dailyCounts : List (Option Text × Nat))
  | serverError (raised : Raised)

def Response.of : Except Raised Response → Response
  | .ok response => response
  | .error raised => .serverError raised

def perPage : Nat := 25

/-- `max(1, int(request.args.get("page", 1)))`, and 1 where that raises ValueError. -/
def pageNumber (argument : Option Text) : Nat :=
  match argument with
  | none => 1
  | some text => ((intOfText 10 (pyStr text)).map fun value => (max 1 value).toNat).getD 1

def crashesPage (sql : Sql) (crashes : List Crash) (process signal : Option Text) (argument : Option Text) : Except Raised Response := do
  let page := pageNumber argument
  let rows ← getCrashes sql crashes (process.getD []) (signal.getD []) (perPage + 1) ((page - 1) * perPage)
  .ok (.list (rows.take perPage) page (perPage < rows.length))

def dashboardPage (sql : Sql) (crashes : List Crash) : Except Raised Response := do
  let recent ← getCrashes sql crashes [] [] 10 0
  let dailyCounts ← dailyCounts sql.dates crashes 14
  .ok (.dashboard (getFrequency sql crashes) recent (getCrashGroups sql crashes) dailyCounts)

def detailPage (crashes : List Crash) (crashId : Nat) : Except Raised Response :=
  (getCrash crashes crashId).map fun crash => crash.elim .notFound .detail

/-- The groups that dashboard.html has rows for. -/
def shownGroups (crashGroups : List CrashGroup) : List CrashGroup := crashGroups.take 5

def uploaded (outcome : Outcome) : Response × Database := (.of (outcome.result.map .reply), outcome.database)

def handle (site : Site) (database : Database) : Request → Response × Database
  | .uploadCrash ts file walk => uploaded (CrashUpload.uploadCrash site database ts file walk)
  | .apiUploadCrash ts file walk => uploaded (CrashUpload.apiUploadCrash site database ts file walk)
  | .deleteCrash crashId =>
    let (result, after) := deleteCrash database crashId
    (.of (result.map fun _ => .toCrashes), after)
  | .crashDetail crashId => (.of (detailPage database.rows crashId), database)
  | .crashes sql process signal page => (.of (crashesPage sql database.rows process signal page), database)
  | .groups sql => (.groups (getCrashGroups sql database.rows), database)
  | .dashboard sql => (.of (dashboardPage sql database.rows), database)

/-- The database after the requests, one after the other. -/
def after (site : Site) (database : Database) (requests : List Request) : Database :=
  requests.foldl (fun database request => (handle site database request).2) database

end Crashomon.Web.CrashPages
