import Crashomon.Base.PathText
import Crashomon.Web.SymbolStore

/-! The routes of web/app.py that remove and serve symbol files. -/

namespace Crashomon.Web.SymbolRoutes
open SymbolStore

/-- The directory that goes. Resolving a path can raise, and then nothing does. -/
def symDirOf (disk : Disk) (cwd : Location) (storePath module buildId : Text) : Option Location :=
  match disk.resolve cwd (PurePath.parse storePath), disk.resolve cwd (destDirOf storePath module buildId) with
  | some storeRoot, some symDir =>
    if storeRoot.str ++ ['/'] <+: symDir.str ∧ disk.node symDir = some .directory then some symDir else none
  | _, _ => none

def deleteSymbol (disk : Disk) (cwd : Location) (storePath module buildId : Text) : Disk :=
  match symDirOf disk cwd storePath module buildId with
  | some symDir => disk.remove symDir
  | none => disk

inductive Response where
  | sent (candidate : Location) (content : List UInt8)
  | aborted (status : Nat)
  | raised
  deriving DecidableEq, Repr

def candidateOf (storePath module buildId filename : Text) : PurePath :=
  (destDirOf storePath module buildId).join (PurePath.parse filename)

def serveSymbol (disk : Disk) (cwd : Location) (storePath module buildId filename : Text) : Response :=
  match disk.resolve cwd (candidateOf storePath module buildId filename), disk.resolve cwd (PurePath.parse storePath) with
  | some candidate, some store =>
    if ¬ store.str <+: candidate.str then .aborted 400
    else
      match disk.fileAt candidate with
      | some (content, _) => .sent candidate content
      | none => .aborted 404
  | _, _ => .raised

end Crashomon.Web.SymbolRoutes
