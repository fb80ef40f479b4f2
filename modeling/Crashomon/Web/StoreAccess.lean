import Crashomon.Base.SharedFiles
import Crashomon.Base.Transition
import Crashomon.Web.SymbolStore

/-! The writers and the readers of one symbol store, one system call at a time. `add_sym_text` of
web/symbol_store.py and `_store_sym` of the tools open the file in its place and write it there;
cmake/store_sym_impl.cmake moves a finished file in. `find_sym` looks for a file, and `serve_symbol`
opens what it has found and reads it to the end. -/

namespace Crashomon.Web.StoreAccess
open SymbolStore

inductive Method where
  | truncate
  | rename
  deriving DecidableEq, Repr

/-- A text for the file of a name. -/
structure Job (Name : Type) where
  name : Name
  text : List UInt8
  method : Method
  deriving DecidableEq, Repr

inductive Phase where
  | ready
  /-- The directory is there. -/
  | made
  /-- The file is open, and so much of the text has been written. -/
  | writing (file written : Nat)
  | done
  | failed
  deriving DecidableEq, Repr

structure Writer (Name : Type) extends Job Name where
  phase : Phase
  deriving DecidableEq, Repr

inductive Reading where
  | ready
  /-- There is a file. -/
  | found
  | reading (file : Nat) (got : List UInt8)
  | saw (seen : Option (List UInt8))
  deriving DecidableEq, Repr

structure Reader (Name : Type) where
  name : Name
  phase : Reading
  deriving DecidableEq, Repr

structure State (Name : Type) where
  files : SharedFiles Name
  writers : List (Writer Name)
  readers : List (Reader Name)

inductive WriterMove where
  | mkdir
  /-- The file is opened and truncated, or moved in. -/
  | place
  /-- A write of one byte and `more`, or of what is left. -/
  | write (more : Nat)
  | fail
  deriving DecidableEq, Repr

inductive ReaderMove where
  | look
  | openFile
  /-- A read of at most one byte and `more`; the first that gets nothing is the last. -/
  | read (more : Nat)
  deriving DecidableEq, Repr

inductive Action where
  | writer (index : Nat) (move : WriterMove)
  | reader (index : Nat) (move : ReaderMove)
  deriving DecidableEq, Repr

variable {Name : Type}

namespace Writer

/-- A writer that has written so much goes on or is done. -/
def after (writer : Writer Name) (file written : Nat) : Phase :=
  if written < writer.text.length then .writing file written else .done

/-- The bytes of a write. -/
def chunk (writer : Writer Name) (written more : Nat) : List UInt8 := (writer.text.drop written).take (more + 1)

variable [DecidableEq Name]

def place (writer : Writer Name) (files : SharedFiles Name) : SharedFiles Name × Phase :=
  match writer.method with
  | .truncate => ((files.openForWriting writer.name).2, writer.after (files.openForWriting writer.name).1 0)
  | .rename => (files.create writer.name writer.text, .done)

def step (writer : Writer Name) (files : SharedFiles Name) : WriterMove → Option (SharedFiles Name × Phase)
  | .mkdir => if writer.phase = .ready then some (files, .made) else none
  | .place => if writer.phase = .made then some (writer.place files) else none
  | .write more =>
    match writer.phase with
    | .writing file written =>
      some (files.writeAt writer.name file written (writer.chunk written more),
        writer.after file (written + (writer.chunk written more).length))
    | _ => none
  | .fail => if writer.phase = .done ∨ writer.phase = .failed then none else some (files, .failed)

end Writer

namespace Reader

/-- The bytes that a read gets. -/
def chunk (reader : Reader Name) (files : SharedFiles Name) (file : Nat) (got : List UInt8) (more : Nat) : List UInt8 :=
  (((files.contents reader.name file).getD []).drop got.length).take (more + 1)

def step (reader : Reader Name) (files : SharedFiles Name) : ReaderMove → Option Reading
  | .look => if reader.phase = .ready then some (if files.links reader.name = none then .saw none else .found) else none
  | .openFile =>
    if reader.phase = .found then some ((files.links reader.name).elim (.saw none) fun file => .reading file []) else none
  | .read more =>
    match reader.phase with
    | .reading file got =>
      some (if reader.chunk files file got more = [] then .saw (some got) else .reading file (got ++ reader.chunk files file got more))
    | _ => none

end Reader

namespace State

/-- Calls on a store of such files, and readers, none of which has done anything yet. -/
def begin (prior : Name → Option (List UInt8)) (jobs : List (Job Name)) (names : List Name) : State Name where
  files := .holding prior
  writers := jobs.map fun job => ⟨job, .ready⟩
  readers := names.map fun name => ⟨name, .ready⟩

variable [DecidableEq Name]

def step (state : State Name) : Action → Option (State Name)
  | .writer index move =>
    (state.writers[index]?).bind fun writer =>
      (writer.step state.files move).map fun (files, phase) =>
        { state with files, writers := state.writers.set index { writer with phase } }
  | .reader index move =>
    (state.readers[index]?).bind fun reader =>
      (reader.step state.files move).map fun phase =>
        { state with readers := state.readers.set index { reader with phase } }

end State

/-- The writing of `add_sym_text`, once it has made the directories; the text is written in UTF-8. -/
def jobOf (outcome : Outcome) : Option (Job Location) :=
  outcome.written.map fun (location, text) => ⟨location, Python.encodeUtf8 text, .truncate⟩

end Crashomon.Web.StoreAccess
