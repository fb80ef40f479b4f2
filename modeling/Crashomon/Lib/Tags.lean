import Crashomon.Base.Text

/-! The tags of the client library: crashomon_set_tag, crashomon_set_abort_message and
the hooks of lib/crashomon.cpp. A C string is the bytes before its NUL, a null pointer
`none`. Crashpad's dictionary class is a parameter. -/

namespace Crashomon.Lib.Tags

/-- crashpad::SimpleStringDictionary. -/
structure SimpleStringDictionary (Store : Type) where
  empty : Store
  setKeyValue : Store → ByteString → ByteString → Store
  /-- The active entries in the order in which they are written to a dump. -/
  entries : Store → List (ByteString × ByteString)

/-- The characters that the dictionary keeps of a value, as lib/crashomon.h says. -/
def valueLimit : Nat := 255

/-- An exception in flight: its mangled type name and, for a std::exception, its what(). -/
structure Raised where
  typeName : ByteString
  what : Option ByteString

structure Client (Store : Type) where
  /-- Whether CrashpadInfo points to the dictionary. -/
  attached : Bool
  annotations : Store
  /-- The last value that was passed to the dictionary for abort_message. -/
  abortMessage : Option ByteString

def initial {Store : Type} (dictionary : SimpleStringDictionary Store) : Client Store := ⟨false, dictionary.empty, none⟩

section Calls
variable {Store : Type} (dictionary : SimpleStringDictionary Store) (demangle : ByteString → Option ByteString)

def crashomonSetTag (client : Client Store) (key value : Option ByteString) : Client Store :=
  match key, value with
  | some key, some value =>
    if client.attached then
      { client with
        annotations := dictionary.setKeyValue client.annotations key value
        abortMessage := if key = ascii "abort_message" then some value else client.abortMessage }
    else client
  | _, _ => client

def crashomonSetAbortMessage (client : Client Store) (message : Option ByteString) : Client Store :=
  crashomonSetTag dictionary client (some (ascii "abort_message")) message

/-- What std::snprintf leaves in a buffer of `size` bytes. -/
def snprintf (size : Nat) (text : ByteString) : ByteString := text.take (size - 1)

def writeAssertAnnotation (client : Client Store) (assertion file : Option ByteString) (line : UInt32)
    (func : Option ByteString) : Client Store :=
  let text := ascii "assertion failed: '" ++ assertion.getD (ascii "?") ++ ascii "' (" ++ file.getD (ascii "?") ++
    ascii ":" ++ digits 10 line.toNat ++ ascii ", " ++ func.getD (ascii "?") ++ ascii ")"
  crashomonSetAbortMessage dictionary client (some (snprintf 512 text))

/-- What CaptureCurrentExceptionMessage leaves in the buffer. -/
def captureCurrentExceptionMessage (size : Nat) (raised : Option Raised) : ByteString :=
  match raised with
  | some ⟨_, some what⟩ => snprintf size what
  | _ => []

def writeTerminateAnnotation (client : Client Store) (excType : Option ByteString) (whatMsg : Option ByteString) :
    Client Store :=
  match excType with
  | some name =>
    let typed := crashomonSetTag dictionary client (some (ascii "terminate_type")) (some ((demangle name).getD name))
    match whatMsg with
    | none | some [] => crashomonSetAbortMessage dictionary typed (some (ascii "unhandled C++ exception"))
    | some message => crashomonSetAbortMessage dictionary typed (some message)
  | none => crashomonSetAbortMessage dictionary client (some (ascii "terminate called without active exception"))

/-- What the process does with the library. -/
inductive Call where
  /-- DoInit; `connected` when the socket exchange with the daemon succeeds. -/
  | doInit (connected : Bool)
  | setTag (key value : Option ByteString)
  | setAbortMessage (message : Option ByteString)
  | assertFail (assertion file : Option ByteString) (line : UInt32) (func : Option ByteString)
  /-- The handler that DoInit passes to std::set_terminate. -/
  | terminate (raised : Option Raised)

def call (client : Client Store) : Call → Client Store
  | .doInit connected => if connected then { client with attached := true } else client
  | .setTag key value => crashomonSetTag dictionary client key value
  | .setAbortMessage message => crashomonSetAbortMessage dictionary client message
  | .assertFail assertion file line func => writeAssertAnnotation dictionary client assertion file line func
  | .terminate raised =>
    if client.attached then
      writeTerminateAnnotation dictionary demangle client (raised.map Raised.typeName)
        (some (captureCurrentExceptionMessage 512 raised))
    else client

def run (client : Client Store) (calls : List Call) : Client Store := calls.foldl (call dictionary demangle) client

end Calls

end Crashomon.Lib.Tags
