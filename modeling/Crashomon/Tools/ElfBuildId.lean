import Crashomon.Base.Python

/-! The build ID of an ELF file as the tools read it, tools/crashomon_tools/patchdmp/__init__.py. -/

namespace Crashomon.Tools.ElfBuildId
open Bytes Python

def elfClass64 : UInt8 := 2
def shtProgbits : Nat := 1
def shtNote : Nat := 7
def ntGnuBuildId : Nat := 3
def xorHashSize : Nat := 16
def xorMaxBytes : Nat := 4096

/-- `sh_name`, `sh_type`, `sh_offset` and `sh_size`. -/
def readShdr (data : Buffer) (eShoff eShentsize index : Nat) (is64 : Bool) : Raises (Nat × Nat × Nat × Nat) :=
  let off := eShoff + index * eShentsize
  if is64 then do
    let shName ← unpackUnsigned data off 4
    let shType ← unpackUnsigned data (off + 4) 4
    let shOffset ← unpackUnsigned data (off + 24) 8
    let shSize ← unpackUnsigned data (off + 32) 8
    .ok (shName, shType, shOffset, shSize)
  else do
    let shName ← unpackUnsigned data off 4
    let shType ← unpackUnsigned data (off + 4) 4
    let shOffset ← unpackUnsigned data (off + 16) 4
    let shSize ← unpackUnsigned data (off + 20) 4
    .ok (shName, shType, shOffset, shSize)

def getShstrtabOffset (data : Buffer) (eShoff eShentsize eShstrndx : Nat) (is64 : Bool) : Raises (Option Nat) := do
  let (_, _, shOffset, _) ← readShdr data eShoff eShentsize eShstrndx is64
  .ok (if shOffset ≠ 0 then some shOffset else none)

/-- `bytes.decode("ascii", errors="replace")` of one byte. -/
def decodeAscii (byte : UInt8) : Char := if byte < 0x80 then Char.ofNat byte.toNat else '\uFFFD'

def cStr (data : Buffer) (off : Nat) : Text := ((data.drop off).takeWhile (· ≠ 0)).map decodeAscii

/-- `value & ~3` -/
def clearLow (value : Nat) : Nat := value / 4 * 4

/-- The loop over the notes. Every note takes 12 bytes or more, so that as many rounds as bytes are enough. -/
def parseBuildIdNoteFrom (data : Buffer) (stop : Nat) : (rounds pos : Nat) → Raises (Option (List UInt8))
  | 0, _ => .ok none
  | rounds + 1, pos =>
    if stop < pos + 12 then .ok none
    else do
      let namesz ← unpackUnsigned data pos 4
      let descsz ← unpackUnsigned data (pos + 4) 4
      let ntype ← unpackUnsigned data (pos + 8) 4
      let nameszPadded := clearLow (namesz + 3)
      let descszPadded := clearLow (descsz + 3)
      let descOff := pos + 12 + nameszPadded
      if ntype = ntGnuBuildId ∧ 0 < descsz ∧ descOff + descsz ≤ stop then .ok (some (slice data descOff descsz))
      else parseBuildIdNoteFrom data stop rounds (pos + 12 + (nameszPadded + descszPadded))

def parseBuildIdNote (data : Buffer) (shOffset shSize : Nat) : Raises (Option (List UInt8)) :=
  parseBuildIdNoteFrom data (shOffset + shSize) shSize shOffset

/-- `acc[j] ^= chunk[i + j]` for each `j`, chunk by chunk. -/
def xorBlocks (chunk : Buffer) : (remaining i : Nat) → (acc : List UInt8) → List UInt8
  | 0, _, acc => acc
  | remaining + 1, i, acc => xorBlocks chunk remaining (i + xorHashSize) (List.zipWith (· ^^^ ·) acc (slice chunk i xorHashSize))

def xorTextHash (data : Buffer) (textOff textSize : Nat) : List UInt8 :=
  let limit := min textSize xorMaxBytes
  let pad := (xorHashSize - limit % xorHashSize) % xorHashSize
  let chunk := slice data textOff (limit + pad)
  let rem := chunk.length % xorHashSize
  let padded := if rem ≠ 0 then chunk ++ List.replicate (xorHashSize - rem) 0 else chunk
  xorBlocks padded (padded.length / xorHashSize) 0 (List.replicate xorHashSize 0)

/-- A section ends the search with a build ID, or it goes on with the .text section seen so far. -/
inductive Visit where
  | found (bid : List UInt8)
  | goOn (text : Option (Nat × Nat))
  deriving DecidableEq, Repr

def noteBuildId (data : Buffer) (secName : Text) (shType shOffset shSize : Nat) : Raises (Option (List UInt8)) :=
  if shType = shtNote ∧ secName = ".note.gnu.build-id".toList ∧ shOffset + shSize ≤ data.length then
    parseBuildIdNote data shOffset shSize
  else .ok none

/-- The loop body. -/
def visitSection (data : Buffer) (shstrtabOff shName shType shOffset shSize : Nat) (text : Option (Nat × Nat)) : Raises Visit :=
  if data.length ≤ shstrtabOff + shName then .ok (.goOn text)
  else do
    let secName := cStr data (shstrtabOff + shName)
    match ← noteBuildId data secName shType shOffset shSize with
    | some bid => .ok (.found bid)
    | none =>
      .ok (.goOn (if shType = shtProgbits ∧ secName = ".text".toList ∧ text = none then some (shOffset, shSize) else text))

def searchSections (data : Buffer) (eShoff eShentsize : Nat) (is64 : Bool) (shstrtabOff : Nat) :
    (remaining i : Nat) → (text : Option (Nat × Nat)) → Raises (Option (List UInt8))
  | 0, _, text =>
    match text with
    | some (textOff, textSize) => .ok (if textSize = 0 then none else some (xorTextHash data textOff textSize))
    | none => .ok none
  | remaining + 1, i, text => do
    let (shName, shType, shOffset, shSize) ← readShdr data eShoff eShentsize i is64
    match ← visitSection data shstrtabOff shName shType shOffset shSize text with
    | .found bid => .ok (some bid)
    | .goOn text => searchSections data eShoff eShentsize is64 shstrtabOff remaining (i + 1) text

/-- `e_shoff`, `e_shentsize`, `e_shnum` and `e_shstrndx`. -/
def readEhdr (data : Buffer) (is64 : Bool) : Raises (Nat × Nat × Nat × Nat) :=
  if is64 then do
    let eShoff ← unpackUnsigned data 40 8
    let eShentsize ← unpackUnsigned data 58 2
    let eShnum ← unpackUnsigned data 60 2
    let eShstrndx ← unpackUnsigned data 62 2
    .ok (eShoff, eShentsize, eShnum, eShstrndx)
  else do
    let eShoff ← unpackUnsigned data 32 4
    let eShentsize ← unpackUnsigned data 46 2
    let eShnum ← unpackUnsigned data 48 2
    let eShstrndx ← unpackUnsigned data 50 2
    .ok (eShoff, eShentsize, eShnum, eShstrndx)

/-- The function from the bytes of the file on. -/
def computeElfBuildId (data : Buffer) : Raises (Option (List UInt8)) :=
  if data.length < 16 ∨ data.take 4 ≠ 0x7F :: ascii "ELF" then .ok none
  else
    let is64 : Bool := data[4]? = some elfClass64
    if data.length < (if is64 then 64 else 52) then .ok none
    else do
      let (eShoff, eShentsize, eShnum, eShstrndx) ← readEhdr data is64
      if eShoff = 0 ∨ eShnum = 0 ∨ eShstrndx = 0 then .ok none
      else if data.length < eShoff + eShnum * eShentsize then .ok none
      else do
        match ← getShstrtabOffset data eShoff eShentsize eShstrndx is64 with
        | none => .ok none
        | some shstrtabOff => searchSections data eShoff eShentsize is64 shstrtabOff eShnum 0 none

end Crashomon.Tools.ElfBuildId
