import Crashomon.Base.PurePath
import Crashomon.Base.Python

/-! The offline build-ID patcher, tools/crashomon_tools/patchdmp/__init__.py.
The modules are read from a copy of the dump taken before the first write. -/

namespace Crashomon.Tools.Patchdmp
open Bytes Python

def minidumpSignature : Nat := 0x504D444D
def mdModuleListStream : Nat := 4
def bpelSignature : Nat := 0x4270454C
def moduleSize : Nat := 108
def modNameRvaOff : Nat := 20
def modCvDataSizeOff : Nat := 76

structure ModuleRecord where
  name : Text
  cvRva : Nat
  cvSize : Nat
  /-- The first word of the CodeView record, 0 where there is none. -/
  cvSig : Nat
  cvSizeFieldOff : Nat
  deriving DecidableEq, Repr

def readModuleName (data : Buffer) (rva : Nat) : Raises Text :=
  if rva = 0 ∨ rva + 4 > data.length then .ok []
  else do
    let length ← unpackFrom data rva
    if length = 0 ∨ rva + 4 + length > data.length then .ok []
    else .ok (decodeUtf16le (slice data (rva + 4) length))

/-- The offset of the first module list in the directory; 0 when there is none. -/
def findModuleStream (data : Buffer) (dirRva : Nat) : (remaining i : Nat) → Raises Nat
  | 0, _ => .ok 0
  | remaining + 1, i =>
    let entryOff := dirRva + i * 12
    if entryOff + 12 > data.length then .ok 0
    else do
      let stype ← unpackFrom data entryOff
      let srva ← unpackFrom data (entryOff + 8)
      if stype = mdModuleListStream then .ok srva else findModuleStream data dirRva remaining (i + 1)

def readModule (data : Buffer) (modOff : Nat) : Raises ModuleRecord := do
  let nameRva ← unpackFrom data (modOff + modNameRvaOff)
  let cvSize ← unpackFrom data (modOff + modCvDataSizeOff)
  let cvRva ← unpackFrom data (modOff + modCvDataSizeOff + 4)
  let name ← readModuleName data nameRva
  let cvSig ← if cvRva ≠ 0 ∧ 4 ≤ cvSize ∧ cvRva + 4 ≤ data.length then unpackFrom data cvRva else .ok 0
  .ok ⟨name, cvRva, cvSize, cvSig, modOff + modCvDataSizeOff⟩

def readModules (data : Buffer) (moduleStreamRva : Nat) : (remaining i : Nat) → Raises (List ModuleRecord)
  | 0, _ => .ok []
  | remaining + 1, i =>
    let modOff := moduleStreamRva + 4 + i * moduleSize
    if modOff + moduleSize > data.length then .ok []
    else do
      let record ← readModule data modOff
      let rest ← readModules data moduleStreamRva remaining (i + 1)
      .ok (record :: rest)

def iterModules (data : Buffer) : Raises (List ModuleRecord) :=
  if data.length < 32 then .ok []
  else do
    let sig ← unpackFrom data 0
    if sig ≠ minidumpSignature then .ok []
    else do
      let streamCount ← unpackFrom data 8
      let dirRva ← unpackFrom data 12
      let moduleStreamRva ← findModuleStream data dirRva streamCount 0
      if moduleStreamRva = 0 ∨ moduleStreamRva + 4 > data.length then .ok []
      else do
        let moduleCount ← unpackFrom data moduleStreamRva
        if moduleCount > 4096 then .ok [] else readModules data moduleStreamRva moduleCount 0

/-- The file system as the tool asks it: `Path.exists` and `compute_elf_build_id`. -/
structure Files where
  pathExists : PurePath → Raises Bool
  computeElfBuildId : PurePath → Raises (Option (List UInt8))

def lookupOverride (modulePath : Text) (overrides : List (Text × List UInt8)) : Option (List UInt8) :=
  match overrides.lookup modulePath with
  | some buildId => some buildId
  | none => overrides.lookup (PurePath.parse modulePath).name

/-- `path.relative_to("/")` of an absolute path. -/
def relativeToRoot (path : PurePath) : Raises PurePath :=
  if path.root = ['/'] then .ok ⟨[], path.tail⟩ else .error (.valueError "path is not in the subpath of '/'")

def resolveElf (files : Files) (modulePath : Text) (sysroot : Option PurePath) : Raises (Option PurePath) :=
  if modulePath = [] then .ok none
  else do
    let path := PurePath.parse modulePath
    let inSysroot ← match sysroot with
      | none => .ok none
      | some root => do
        let rel ← if path.isAbsolute then relativeToRoot path else .ok path
        let found ← files.pathExists (root.join rel)
        .ok (if found then some (root.join rel) else none)
    match inSysroot with
    | some candidate => .ok (some candidate)
    | none => do
      let found ← files.pathExists path
      .ok (if found then some path else none)

def findBuildId (files : Files) (sysroot : Option PurePath) (overrides : List (Text × List UInt8)) (modulePath : Text) :
    Raises (Option (List UInt8)) :=
  match lookupOverride modulePath overrides with
  | some buildId => .ok (some buildId)
  | none => do
    match ← resolveElf files modulePath sysroot with
    | none => .ok none
    | some elfPath => files.computeElfBuildId elfPath

/-- The loop body for one module: the patched data, or nothing where it continues. -/
def patchModule (files : Files) (sysroot : Option PurePath) (overrides : List (Text × List UInt8)) (data : Buffer)
    (mod : ModuleRecord) : Raises (Option Buffer) :=
  if mod.cvSig = bpelSignature then .ok none
  else if mod.cvRva = 0 ∨ mod.cvSize < 4 then .ok none
  else do
    match ← findBuildId files sysroot overrides mod.name with
    | none => .ok none
    | some buildId =>
      let bpelSize := 4 + buildId.length
      if mod.cvSize < bpelSize then .ok none
      else do
        let signed ← packInto data mod.cvRva bpelSignature
        let sized ← packInto (overwrite signed (mod.cvRva + 4) buildId) mod.cvSizeFieldOff bpelSize
        .ok (some sized)

def patchModules (files : Files) (sysroot : Option PurePath) (overrides : List (Text × List UInt8)) :
    List ModuleRecord → Buffer → (patched : Nat) → Raises (Buffer × Nat)
  | [], data, patched => .ok (data, patched)
  | mod :: mods, data, patched => do
    match ← patchModule files sysroot overrides data mod with
    | some next => patchModules files sysroot overrides mods next (patched + 1)
    | none => patchModules files sysroot overrides mods data patched

def patchMinidump (files : Files) (sysroot : Option PurePath) (overrides : List (Text × List UInt8)) (data : Buffer) :
    Raises (Buffer × Nat) := do
  let mods ← iterModules data
  patchModules files sysroot overrides mods data 0

end Crashomon.Tools.Patchdmp
