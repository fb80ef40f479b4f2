import Crashomon.Base.Text

/-! The part of absl::Status that the daemon uses. -/

namespace Crashomon.Daemon

inductive StatusCode where
  | internal
  | invalidArgument
  | notFound
  deriving DecidableEq, Repr

structure StatusError where
  code : StatusCode
  message : ByteString
  deriving DecidableEq, Repr

abbrev StatusOr (α : Type) := Except StatusError α

abbrev Status := StatusOr Unit

def internalError (message : ByteString) : StatusError := ⟨.internal, message⟩
def invalidArgumentError (message : ByteString) : StatusError := ⟨.invalidArgument, message⟩
def notFoundError (message : ByteString) : StatusError := ⟨.notFound, message⟩

end Crashomon.Daemon
