import Crashomon.Base.Bytes
import Crashomon.Base.Transition
import Crashomon.Web.App
import Mathlib.Logic.Function.Basic

/-! The upload requests of web/app.py and the directory they share: upload_crash,
api_upload_crash, upload_symbols, api_upload_symbols and delete_crash. A request takes its
steps one by one, and the steps of any number of requests come in any order. -/

namespace Crashomon.Web.Uploads
open Bytes Python Models App

/-- What the handlers call. `Circumstances` is all that an analysis depends on besides the file. -/
structure Setup (Circumstances : Type) where
  tmpDir : Text
  secureFilename : Text → Text
  /-- The outcome of analyze_minidump from what stackwalk and then the annotation reader find in the file. -/
  analyzeMinidump : Circumstances → (walked read : Option Buffer) → Except Raised Text
  sha256 : ByteArray → Vector UInt8 32

inductive Phase where
  | idle
  /-- A crash upload behind the save. -/
  | saved (path : Text) (uploaded : Buffer)
  /-- Behind the run of stackwalk. -/
  | walked (path : Text) (uploaded : Buffer) (seen : Option Buffer)
  /-- Before insert_crash. -/
  | analysed (path : Text) (uploaded : Buffer) (report : Text)
  /-- A symbol upload between the save and the unlink. -/
  | importing (path : Text)
  | done

structure State where
  /-- The uploaded files by path. -/
  files : Text → Option Buffer
  /-- The table crashes, and the bytes that were uploaded for each row. -/
  rows : List (Crash × Buffer)
  /-- The AUTOINCREMENT sequence. -/
  sequence : Nat
  phase : Nat → Phase

def initial (files : Text → Option Buffer) : State := ⟨files, [], 0, fun _ => .idle⟩

inductive Call (Circumstances : Type) where
  /-- An interrupted save leaves other bytes and raises. -/
  | saveCrash (filename : Text) (data : Buffer) (interrupted : Option Buffer)
  | stackwalk
  | annotate (call : Circumstances)
  | insert (ts : Text) (works : Bool)
  | saveSymbols (filename : Text) (data : Buffer) (interrupted : Option Buffer)
  /-- The finally clause, after the import has read the file. -/
  | unlink (removes : Bool)
  | deleteCrash (id : Nat)
  /-- Making the directory fails. -/
  | refuse

structure Action (Circumstances : Type) where
  request : Nat
  call : Call Circumstances

def State.enter (state : State) (request : Nat) (phase : Phase) : State :=
  { state with phase := Function.update state.phase request phase }

def State.put (state : State) (path : Text) (content : Option Buffer) : State :=
  { state with files := Function.update state.files path content }

variable {Circumstances : Type}

/-- A file is saved under its sanitised name; an empty one ends the request. -/
def save (setup : Setup Circumstances) (state : State) (request : Nat) (filename : Text) (data : Buffer)
    (interrupted : Option Buffer) (next : Text → Phase) : State :=
  let safeName := setup.secureFilename filename
  let path := uploadPath setup.tmpDir safeName
  if filename = [] ∨ safeName = [] then state.enter request .done
  else match interrupted with
    | none => (state.put path (some data)).enter request (next path)
    | some content => (state.put path (some content)).enter request .done

def step (setup : Setup Circumstances) (state : State) (action : Action Circumstances) : Option State :=
  let request := action.request
  match action.call, state.phase request with
  | .saveCrash filename data interrupted, .idle =>
    some (save setup state request filename data interrupted fun path => .saved path data)
  | .stackwalk, .saved path uploaded => some (state.enter request (.walked path uploaded (state.files path)))
  | .annotate call, .walked path uploaded seen =>
    match reportOf (setup.analyzeMinidump call seen (state.files path)) with
    | .ok report => some (state.enter request (.analysed path uploaded report))
    | .error _ => some (state.enter request .done)
  | .insert ts works, .analysed path uploaded report =>
    let (process, signal) := extractMeta report
    let row := insertedCrash setup.sha256 (state.sequence + 1) ts process signal 0 report path
    some (({ state with
      rows := if works then state.rows ++ [(row, uploaded)] else state.rows
      sequence := if works then state.sequence + 1 else state.sequence } : State).enter request .done)
  | .saveSymbols filename data interrupted, .idle => some (save setup state request filename data interrupted .importing)
  | .unlink removes, .importing path => some ((if removes then state.put path none else state).enter request .done)
  | .deleteCrash id, .idle => some (({ state with rows := state.rows.filter fun row => row.1.id ≠ id } : State).enter request .done)
  | .refuse, .idle => some (state.enter request .done)
  | _, _ => none

def run (setup : Setup Circumstances) : State → List (Action Circumstances) → Option State := Transition.run (step setup)

end Crashomon.Web.Uploads
