import Crashomon.Base.Base64
import Crashomon.Base.Python

/-! Optional authentication, web/auth.py: the hook that runs before each request and its check of the
Basic scheme. A header that is missing is empty. -/

namespace Crashomon.Web.Auth
open Python

def IsAscii (text : Text) : Prop := ∀ character ∈ text, character.toNat < 0x80

instance (text : Text) : Decidable (IsAscii text) := List.decidableBAll (fun character : Char => character.toNat < 0x80) text

/-- `secrets.compare_digest` of two str. -/
def compareDigest (first second : Text) : Except Raised Bool :=
  if IsAscii first ∧ IsAscii second then .ok (first = second) else .error .typeError

def checkBasic (header expectedUser expectedPass : Text) : Except Raised Bool :=
  if ¬ "Basic ".toList <+: header then .ok false
  else match Base64.b64decode (header.drop 6) with
    | none => .ok false
    | some bytes =>
      let decoded := decodeUtf8 bytes
      if ':' ∉ decoded then .ok false
      else do
        let colon := decoded.idxOf ':'
        let userOk ← compareDigest (decoded.take colon) expectedUser
        let passOk ← compareDigest (decoded.drop (colon + 1)) expectedPass
        .ok (userOk && passOk)

structure Settings where
  apiKey : Text
  basicUser : Text
  basicPass : Text

/-- The response of the hook, where the request ends with it. -/
structure Response where
  body : Text
  status : Nat
  headers : List (Text × Text)
  deriving DecidableEq, Repr

def unauthorized : Response :=
  ⟨"\x7b\"status\":\"error\",\"message\":\"unauthorized\"\x7d".toList, 401, [("Content-Type".toList, "application/json".toList)]⟩

def authenticationRequired : Response :=
  ⟨"Authentication required".toList, 401, [("WWW-Authenticate".toList, "Basic realm=\"crashomon\"".toList)]⟩

/-- The hook; with no setting at all it is not registered, which is the same as that it lets every request pass. -/
def checkAuth (settings : Settings) (path apiKeyHeader authorization : Text) : Except Raised (Option Response) :=
  if "/api/".toList <+: path then
    if settings.apiKey = [] then .ok none
    else do
      let known ← compareDigest apiKeyHeader settings.apiKey
      .ok (if known then none else some unauthorized)
  else if settings.basicUser ≠ [] ∧ settings.basicPass ≠ [] then do
    let known ← checkBasic authorization settings.basicUser settings.basicPass
    .ok (if known then none else some authenticationRequired)
  else .ok none

end Crashomon.Web.Auth
