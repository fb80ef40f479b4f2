import Crashomon.Tools.Analyze
import Crashomon.Web.App

/-! The crash upload handlers of web/app.py, upload_crash and api_upload_crash, from the
request to the row and the reply. -/

namespace Crashomon.Web.CrashUpload
open Bytes Python Tools.Analyze App Models

/-- What the handlers run on. -/
structure Site where
  tmpDir : Text
  secureFilename : Text → Text
  sha256 : ByteArray → Vector UInt8 32
  interpreter : Interpreter
  stackwalk : Text

structure Database where
  rows : List Crash
  /-- The AUTOINCREMENT sequence. -/
  sequence : Nat
  deriving DecidableEq

/-- The file of the form's field `minidump`. -/
structure Upload where
  filename : Text
  data : Buffer

inductive Reply where
  /-- A redirect to the page of the new crash. -/
  | crashDetail (crashId : Nat)
  /-- A redirect to the form, with a message. -/
  | uploadForm (flashed : Text)
  /-- 201 with `{"status": "ok"}`. -/
  | created (crashId : Nat)
  /-- 400 with `{"status": "error"}`. -/
  | badRequest (message : Text)
  deriving DecidableEq, Repr

/-- An exception that a handler does not catch is answered with a server error. -/
structure Outcome where
  result : Except Raised Reply
  database : Database

/-- What a handler answers without a file, for an empty name and after the insertion. -/
structure Replies where
  noFile : Reply
  invalidFilename : Reply
  stored : Nat → Reply

/-- The report of a crash; a RuntimeError is caught and becomes the text. -/
def crashReport (analysis : Except Raised PyStr) : Except Raised PyStr :=
  match analysis with
  | .error (.runtimeError message) => .ok (pyStr ("(symbolication failed: ".toList ++ message ++ ")\n".toList))
  | outcome => outcome

/-- `insert_crash`. Its arguments go to the database as UTF-8, so a lone surrogate raises. -/
def insertCrash (site : Site) (database : Database) (ts : Text) (report : PyStr) (dmpPath : Text) :
    Except Raised Nat × Database :=
  match toText report with
  | none => (.error .unicodeError, database)
  | some text =>
    let (process, signal) := extractMeta text
    let row := insertedCrash site.sha256 (database.sequence + 1) ts process signal 0 text dmpPath
    (.ok row.id, ⟨database.rows ++ [row], database.sequence + 1⟩)

/-- Both handlers, once the file is saved. -/
def upload (replies : Replies) (site : Site) (database : Database) (ts : Text) (file : Option Upload) (walk : Walk) : Outcome :=
  match file with
  | none => ⟨.ok replies.noFile, database⟩
  | some file =>
    let safeName := site.secureFilename file.filename
    if file.filename = [] then ⟨.ok replies.noFile, database⟩
    else if safeName = [] then ⟨.ok replies.invalidFilename, database⟩
    else
      match crashReport (analyzeMinidump site.interpreter site.stackwalk walk (some file.data)) with
      | .error raised => ⟨.error raised, database⟩
      | .ok report =>
        let (crashId, database) := insertCrash site database ts report (uploadPath site.tmpDir safeName)
        ⟨crashId.map replies.stored, database⟩

def uploadCrash : Site → Database → Text → Option Upload → Walk → Outcome :=
  upload ⟨.uploadForm "No file selected.".toList, .uploadForm "Invalid filename.".toList, .crashDetail⟩

def apiUploadCrash : Site → Database → Text → Option Upload → Walk → Outcome :=
  upload ⟨.badRequest "no minidump provided".toList, .badRequest "invalid filename".toList, .created⟩

end Crashomon.Web.CrashUpload
