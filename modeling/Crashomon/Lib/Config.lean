import Crashomon.Base.Numerals

/-! The configuration of the client library, lib/crashomon_internal.h. The environment is an input. -/

namespace Crashomon.Lib.Config
open Numerals

def kDefaultDbPath : ByteString := ascii "/var/crashomon"
def kDefaultSocketPath : ByteString := ascii "/run/crashomon/handler.sock"
def kDefaultConnectTimeoutSec : Int := 3

structure ResolvedConfig where
  dbPath : ByteString
  socketPath : ByteString
  connectTimeoutSec : Int
  deriving DecidableEq, Repr

def resolveTimeout (model : DataModel) (env : Option ByteString) : Int :=
  match env with
  | none => kDefaultConnectTimeoutSec
  | some str =>
    match strtol model.longBits str with
    | none => kDefaultConnectTimeoutSec
    | some (val, rest) => if rest = [] ∧ 0 ≤ val then castInt val else kDefaultConnectTimeoutSec

def resolve (model : DataModel) (getEnv : ByteString → Option ByteString) : ResolvedConfig where
  dbPath := (getEnv (ascii "CRASHOMON_DB_PATH")).getD kDefaultDbPath
  socketPath := (getEnv (ascii "CRASHOMON_SOCKET_PATH")).getD kDefaultSocketPath
  connectTimeoutSec := resolveTimeout model (getEnv (ascii "CRASHOMON_CONNECT_TIMEOUT_SEC"))

end Crashomon.Lib.Config
