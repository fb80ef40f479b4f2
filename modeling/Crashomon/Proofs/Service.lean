import Crashomon.Proofs.CrashHistory
import Crashomon.Proofs.SymbolService
import Crashomon.Web.Service

/-! The web application as a whole: behind its checks it is a crash history, a map of symbol files and a directory of
uploaded files, side by side on one disk, and a request that does not pass the checks leaves all three as they are. -/

namespace Crashomon.Proofs.Service
open Disk FileTree Location Python SymbolService
open SymbolMap hiding Request
open Web
open Web.Service
open Web.CrashUpload (Database)
open Web.SymbolService (present)

section Checks

/-- The header has the key, where there is one. -/
def Keyed (settings : Auth.Settings) (header : Text) : Prop :=
  settings.apiKey = [] ∨ header = settings.apiKey ∧ Auth.IsAscii settings.apiKey

/-- The header has the user and the password, where there are both. -/
def Known (settings : Auth.Settings) (authorization : Text) : Prop :=
  settings.basicUser = [] ∨ settings.basicPass = [] ∨
    (Auth.checkBasic authorization settings.basicUser settings.basicPass).toOption = some true

/-- What a request needs: the two routes for programs the key, the others user and password, and a form its token. -/
def Authorized (settings : Auth.Settings) (request : Request) : Prop :=
  if request.target.exempt then Keyed settings request.apiKeyHeader
  else Known settings request.authorization ∧ (request.target.posts → request.token)

instance (settings : Auth.Settings) (header : Text) : Decidable (Keyed settings header) := inferInstanceAs (Decidable (_ ∨ _ ∧ _))

instance (settings : Auth.Settings) (authorization : Text) : Decidable (Known settings authorization) :=
  inferInstanceAs (Decidable (_ ∨ _ ∨ _))

instance (settings : Auth.Settings) (request : Request) : Decidable (Authorized settings request) :=
  inferInstanceAs (Decidable (if request.target.exempt then Keyed settings request.apiKeyHeader
    else Known settings request.authorization ∧ (request.target.posts → request.token)))

/-- The answer to a request that does not pass. -/
def IsRefusal : Response → Prop
  | .badToken | .serverError => True
  | .refused response => response.status = 401
  | _ => False

end Checks

section Contents

/-- What the application is about: the crashes, the texts of the symbol files, and the uploaded files that stay. -/
structure Contents where
  crashes : Database
  symbols : TextMap
  files : Text → Option (List UInt8 × Nat)

/-- The minidump that the upload of a crash leaves behind, under its name. -/
def minidump (site : Site) (request : CrashPages.Request) : Option (Text × List UInt8) :=
  ((present (fileOf request)).filter fun file => site.symbols.secureFilename file.filename ≠ []).map fun file =>
    (site.symbols.secureFilename file.filename, file.data)

def keepFiles (site : Site) (now : Nat) (files : Text → Option (List UInt8 × Nat)) : Target → Text → Option (List UInt8 × Nat)
  | .crash request => (minidump site request).elim files fun (name, data) => Function.update files name (some (data, now))
  | .symbol request => (removed site.symbols request).elim files fun name => Function.update files name none
  | .uploadForm => files

/-- What a request that passes changes. -/
def change (site : Site) (contents : Contents) (now : Nat) (target : Target) : Contents where
  crashes := match target with
    | .crash request => (CrashPages.handle site.crashes contents.crashes request).2
    | _ => contents.crashes
  symbols := match target with
    | .symbol request => keep site.symbols contents.symbols request
    | _ => contents.symbols
  files := keepFiles site now contents.files target

def next (site : Site) (contents : Contents) (request : Request) : Contents :=
  if Authorized site.settings request then change site contents request.now request.target else contents

/-- What a handler answers. -/
def Answered (site : Site) (contents : Contents) : Target → Response → Prop
  | .crash request, response => response = .crash (CrashPages.handle site.crashes contents.crashes request).1
  | .symbol request, response => ∃ answered, response = .symbol answered ∧ Answers site.symbols contents.symbols request answered
  | .uploadForm, response => response = .uploadForm

/-- What the application answers. -/
def Replies (site : Site) (contents : Contents) (request : Request) (response : Response) : Prop :=
  if Authorized site.settings request then Answered site contents request.target response else IsRefusal response

/-- The names that a request stores symbols under are single components of a path. -/
def Proper (site : Site) : Target → Prop
  | .symbol request => Named site.symbols request
  | _ => True

/-- A state of the application and what it is about. -/
structure Represents (site : Site) (root place : Location) (state : State) (contents : Contents) : Prop where
  database : state.database = contents.crashes
  serving : Serving site.symbols root place state.disk contents.symbols
  files : ∀ name, fileAt state.disk (uploads place ++ [name]) = contents.files name

end Contents

section Steps
variable {site : Site} {root place : Location} {state : State} {contents : Contents} {disk : Disk} {map : TextMap}

end Steps

/-- What the application starts with: no symbols, and the files that are there. -/
def initial (place : Location) (state : State) : Contents := ⟨state.database, ∅, fun name => fileAt state.disk (uploads place ++ [name])⟩

end Crashomon.Proofs.Service
