import Crashomon.Web.Auth
import Crashomon.Web.CrashPages
import Crashomon.Web.SymbolService

/-! The web application of web/app.py: the checks before a request, the crash pages and the symbol routes, over the database
and the disk. Flask-WTF, which checks the token of a form, is registered before the authentication. -/

namespace Crashomon.Web.Service
open Python Models CrashUpload

structure Site where
  symbols : SymbolService.Site
  sha256 : ByteArray → Vector UInt8 32
  stackwalk : Text
  settings : Auth.Settings

/-- What the crash pages run on. -/
def Site.crashes (site : Site) : CrashUpload.Site :=
  ⟨(SymbolService.tmpDir site.symbols).str, site.symbols.secureFilename, site.sha256, site.symbols.interpreter, site.stackwalk⟩

inductive Target where
  | crash (request : CrashPages.Request)
  | symbol (request : SymbolService.Request)
  | uploadForm

/-- `request.path` -/
def Target.path : Target → Text
  | .crash (.uploadCrash _ _ _) => "/crashes/upload".toList
  | .crash (.apiUploadCrash _ _ _) => "/api/crashes/upload".toList
  | .crash (.deleteCrash crashId) => "/crashes/".toList ++ (Nat.toDigits 10 crashId ++ "/delete".toList)
  | .crash (.crashDetail crashId) => "/crashes/".toList ++ Nat.toDigits 10 crashId
  | .crash (.crashes _ _ _ _) => "/crashes".toList
  | .crash (.groups _) => "/groups".toList
  | .crash (.dashboard _) => "/".toList
  | .symbol (.apiUploadSymbols _ _) => "/api/symbols/upload".toList
  | .symbol (.uploadSymbols _) => "/symbols/upload".toList
  | .symbol .symbols => "/symbols".toList
  | .symbol (.serveSymbol module buildId filename) =>
    "/symbols/".toList ++ (module ++ '/' :: (buildId ++ '/' :: filename))
  | .symbol (.deleteSymbol module buildId) => "/symbols/".toList ++ (module ++ '/' :: (buildId ++ "/delete".toList))
  | .uploadForm => "/upload".toList

/-- The routes of POST; the others are of GET. -/
def Target.posts : Target → Bool
  | .crash (.uploadCrash _ _ _) | .crash (.apiUploadCrash _ _ _) | .crash (.deleteCrash _) => true
  | .symbol (.apiUploadSymbols _ _) | .symbol (.uploadSymbols _) | .symbol (.deleteSymbol _ _) => true
  | _ => false

/-- `@csrf.exempt` -/
def Target.exempt : Target → Bool
  | .crash (.apiUploadCrash _ _ _) | .symbol (.apiUploadSymbols _ _) => true
  | _ => false

structure Request where
  target : Target
  now : Nat
  apiKeyHeader : Text
  authorization : Text
  /-- The form has a valid token. -/
  token : Bool

inductive Response where
  | crash (response : CrashPages.Response)
  | symbol (response : SymbolService.Response)
  | uploadForm
  /-- 400 of the token check. -/
  | badToken
  | refused (response : Auth.Response)
  | serverError

structure State where
  disk : Disk
  database : Database

/-- The hooks before a request, in their order. -/
def beforeRequest (site : Site) (request : Request) : Option Response :=
  if request.target.posts ∧ ¬ request.target.exempt ∧ ¬ request.token then some .badToken
  else
    match Auth.checkAuth site.settings request.target.path request.apiKeyHeader request.authorization with
    | .error _ => some .serverError
    | .ok refusal => refusal.map .refused

/-- The minidump of an upload. -/
def fileOf : CrashPages.Request → Option Upload
  | .uploadCrash _ file _ | .apiUploadCrash _ file _ => file
  | _ => none

/-- The upload of a crash saves its file before the analysis. -/
def saveCrash (site : Site) (now : Nat) (request : CrashPages.Request) (disk : Disk) : Except OsError Unit × Disk :=
  match SymbolService.present (fileOf request) with
  | none => (.ok (), disk)
  | some file =>
    let safeName := site.symbols.secureFilename file.filename
    if safeName = [] then (.ok (), disk)
    else
      match SymbolService.mkdir site.symbols (SymbolService.tmpDir site.symbols) disk with
      | (.error error, made) => (.error error, made)
      | (.ok (), made) =>
        SymbolService.save site.symbols now ((SymbolService.tmpDir site.symbols).join (PurePath.parse safeName)) file.data made

/-- The handler of a route. -/
def dispatch (site : Site) (state : State) (now : Nat) : Target → Response × State
  | .crash request =>
    match saveCrash site now request state.disk with
    | (.error _, disk) => (.serverError, { state with disk })
    | (.ok (), disk) =>
      let (response, database) := CrashPages.handle site.crashes state.database request
      (.crash response, ⟨disk, database⟩)
  | .symbol request =>
    let (response, disk) := SymbolService.handle site.symbols now state.disk request
    (.symbol response, { state with disk })
  | .uploadForm => (.uploadForm, state)

def handle (site : Site) (state : State) (request : Request) : Response × State :=
  match beforeRequest site request with
  | some response => (response, state)
  | none => dispatch site state request.now request.target

def after (site : Site) (state : State) (requests : List Request) : State :=
  requests.foldl (fun state request => (handle site state request).2) state

end Crashomon.Web.Service
