import Crashomon.Base.PyValue
import Crashomon.Tools.Patchdmp

/-! crashomon-patchdmp, tools/crashomon_tools/patchdmp/cli.py: the overrides of the command line, and from the bytes of
the dump on the listing of `--dry-run` and the run that patches. -/

namespace Crashomon.Tools.PatchdmpCli
open Bytes Python Patchdmp

/-- What the dry run finds for one module, and where it comes from. -/
structure Preview where
  mod : ModuleRecord
  bid : Option (List UInt8)
  source : Text
  deriving DecidableEq, Repr

def hexDigit (value : Nat) : Char := "0123456789abcdef".toList.getD value '0'

/-- `bid.hex()` -/
def hex (bytes : List UInt8) : Text := bytes.flatMap fun byte => [hexDigit (byte.toNat / 16), hexDigit (byte.toNat % 16)]

/-- The build ID that the line shows; an empty one counts as none. -/
def Preview.shown (preview : Preview) : Option (List UInt8) := preview.bid.filter fun bid => bid ≠ []

def Preview.status (preview : Preview) : Text :=
  match preview.shown with
  | some bid => hex bid ++ " (".toList ++ preview.source ++ ")".toList
  | none => preview.source

def Preview.line (preview : Preview) : Text := "  ".toList ++ preview.mod.name ++ "  ->  ".toList ++ preview.status

def needsPatch (mods : List ModuleRecord) : List ModuleRecord := mods.filter fun mod => mod.cvSig ≠ bpelSignature ∧ mod.cvRva ≠ 0

/-- The loop body of the dry run. -/
def preview (files : Files) (sysroot : Option PurePath) (overrides : List (Text × List UInt8)) (mod : ModuleRecord) : Raises Preview :=
  match lookupOverride mod.name overrides with
  | some bid => .ok ⟨mod, some bid, "override".toList⟩
  | none => do
    match ← resolveElf files mod.name sysroot with
    | none => .ok ⟨mod, none, "not found".toList⟩
    | some elf => do
      let bid ← files.computeElfBuildId elf
      .ok ⟨mod, bid, if bid = none ∨ bid = some [] then "not found".toList else "ELF".toList⟩

def previews (files : Files) (sysroot : Option PurePath) (overrides : List (Text × List UInt8)) (data : Buffer) : Raises (List Preview) := do
  let mods ← iterModules data
  (needsPatch mods).mapM (preview files sysroot overrides)

/-- The lines that `--dry-run` prints. -/
def dryRun (files : Files) (sysroot : Option PurePath) (overrides : List (Text × List UInt8)) (data : Buffer) : Raises (List Text) := do
  let shown ← previews files sysroot overrides data
  .ok (if shown = [] then ["No modules need patching.".toList] else shown.map Preview.line)

/-- The line that the real run prints, and what it writes to the output. -/
def patchRun (files : Files) (sysroot : Option PurePath) (overrides : List (Text × List UInt8)) (data : Buffer) : Raises (Text × Buffer) := do
  let (out, count) ← patchMinidump files sysroot overrides data
  .ok ("Patched ".toList ++ (toString count).toList ++ " module(s).".toList, out)

def isAsciiSpace (character : Char) : Bool := character ∈ [' ', '\t', '\n', '\r', '\x0B', '\x0C']

def nibble (character : Char) : Option Nat :=
  if '0' ≤ character ∧ character ≤ '9' then some (character.toNat - '0'.toNat)
  else if 'a' ≤ character ∧ character ≤ 'f' then some (character.toNat - 'a'.toNat + 10)
  else if 'A' ≤ character ∧ character ≤ 'F' then some (character.toNat - 'A'.toNat + 10)
  else none

/-- `bytes.fromhex`, nothing where it raises ValueError; blanks may stand between the bytes. -/
def fromHex : Text → Option (List UInt8)
  | [] => some []
  | first :: rest =>
    if isAsciiSpace first then fromHex rest
    else
      match rest with
      | [] => none
      | second :: rest => do
        let high ← nibble first
        let low ← nibble second
        let bytes ← fromHex rest
        some (UInt8.ofNat (16 * high + low) :: bytes)

/-- The name and the build ID of one `--build-id`, or the text of the ValueError. -/
def parseSpec (interpreter : Interpreter) (spec : Text) : Except Text (Text × List UInt8) :=
  let quoted (text : Text) : Text := interpreter.repr (.str (pyStr text))
  let refused (reason : Text) : Text := "--build-id ".toList ++ quoted spec ++ ": ".toList ++ reason
  if '=' ∉ spec then .error (refused "expected NAME=HEXBYTES".toList)
  else
    let name := spec.take (spec.idxOf '=')
    let hexStr := spec.drop (spec.idxOf '=' + 1)
    if name = [] then .error (refused "NAME must not be empty".toList)
    else if hexStr.length % 2 ≠ 0 then .error (refused ("hex string has odd length ".toList ++ formatInt 10 0 hexStr.length))
    else
      match fromHex hexStr with
      | none => .error (refused (quoted hexStr ++ " is not valid hex".toList))
      | some bytes => .ok (name, bytes)

/-- `_parse_build_id_overrides`; without any the tool has none. -/
def parseBuildIdOverrides (interpreter : Interpreter) (specs : List Text) : Except Text (List (Text × List UInt8)) :=
  specs.foldlM (fun overrides spec => do
    let (name, bytes) ← parseSpec interpreter spec
    .ok (dictSet overrides name bytes)) []

end Crashomon.Tools.PatchdmpCli
