import Crashomon.Base.Memory
import Crashomon.Base.Text

/-! The build ID of an ELF file as the daemon reads it from a mapping,
daemon/minidump_patcher.cpp. An offset is a pointer less the mapping's address,
so all of them are 64-bit sums; a read outside the mapped pages faults. -/

namespace Crashomon.Daemon.ElfBuildId
open Bytes Memory

def elfClass64 : UInt8 := 2
def shtProgbits : Nat := 1
def shtNote : Nat := 7
def shnUndef : Nat := 0
def kNtGnuBuildId : Nat := 3
def kXorHashSize : Nat := 16
def kXorMaxBytes : Nat := 4096

def pageSize : Nat := 4096

/-- The value a 64-bit register holds for an exact result. -/
def sizeT (value : Nat) : Nat := value % 2 ^ 64

theorem sizeT_of_lt {value : Nat} (small : value < 2 ^ 64) : sizeT value = value := Nat.mod_eq_of_lt small

theorem sizeT_le (value : Nat) : sizeT value ≤ value := Nat.mod_le _ _

/-- `mmap` of a whole file. The rest of the last page is zero. -/
def mapFile (file : Buffer) : Buffer := file ++ List.replicate ((pageSize - file.length % pageSize) % pageSize) 0

def loadUnsigned (map : Buffer) (off width : Nat) : Checked Nat := do
  let bytes ← load map (sizeT off) width
  .ok (leValue bytes)

/-- `value & ~size_t{3}` -/
def clearLow (value : Nat) : Nat := value / 4 * 4

/-- The loop over the notes. Every note takes 12 bytes or more, so that `size` rounds are enough. -/
def parseBuildIdNoteFrom (map : Buffer) (base size : Nat) : (rounds pos : Nat) → Checked (List UInt8)
  | 0, _ => .ok []
  | rounds + 1, pos =>
    if size < sizeT (pos + 12) then .ok []
    else do
      let namesz ← loadUnsigned map (base + pos) 4
      let descsz ← loadUnsigned map (base + pos + 4) 4
      let ntype ← loadUnsigned map (base + pos + 8) 4
      let nameszPadded := clearLow (u32 (namesz + 3))
      let descszPadded := clearLow (u32 (descsz + 3))
      let descOff := sizeT (pos + 12 + nameszPadded)
      if ntype = kNtGnuBuildId ∧ 0 < descsz ∧ sizeT (descOff + descsz) ≤ size then load map (sizeT (base + descOff)) descsz
      else parseBuildIdNoteFrom map base size rounds (sizeT (pos + 12 + (nameszPadded + descszPadded)))

def parseBuildIdNote (map : Buffer) (base size : Nat) : Checked (List UInt8) :=
  parseBuildIdNoteFrom map base size size 0

structure SectionFields where
  shName : Nat
  shType : Nat
  shOffset : Nat
  shSize : Nat
  deriving DecidableEq, Repr

/-- The section table, from the ELF header. -/
structure Ehdr where
  is64 : Bool
  eShoff : Nat
  eShentsize : Nat
  eShnum : Nat
  eShstrndx : Nat
  deriving DecidableEq, Repr

def readEhdr (map : Buffer) (is64 : Bool) : Checked Ehdr :=
  if is64 then do
    let eShoff ← loadUnsigned map 40 8
    let eShentsize ← loadUnsigned map 58 2
    let eShnum ← loadUnsigned map 60 2
    let eShstrndx ← loadUnsigned map 62 2
    .ok ⟨is64, eShoff, eShentsize, eShnum, eShstrndx⟩
  else do
    let eShoff ← loadUnsigned map 32 4
    let eShentsize ← loadUnsigned map 46 2
    let eShnum ← loadUnsigned map 48 2
    let eShstrndx ← loadUnsigned map 50 2
    .ok ⟨is64, eShoff, eShentsize, eShnum, eShstrndx⟩

def readShdr (map : Buffer) (ehdr : Ehdr) (index : Nat) : Checked SectionFields :=
  let shdr := ehdr.eShoff + index * ehdr.eShentsize
  if ehdr.is64 then do
    let shName ← loadUnsigned map shdr 4
    let shType ← loadUnsigned map (shdr + 4) 4
    let shOffset ← loadUnsigned map (shdr + 24) 8
    let shSize ← loadUnsigned map (shdr + 32) 8
    .ok ⟨shName, shType, shOffset, shSize⟩
  else do
    let shName ← loadUnsigned map shdr 4
    let shType ← loadUnsigned map (shdr + 4) 4
    let shOffset ← loadUnsigned map (shdr + 16) 4
    let shSize ← loadUnsigned map (shdr + 20) 4
    .ok ⟨shName, shType, shOffset, shSize⟩

/-- `std::strcmp(name, word) == 0`. Reading ends at the first difference, or at the NUL of both. -/
def nameEquals (map : Buffer) : (off : Nat) → (word : ByteString) → Checked Bool
  | off, [] => do
    let last ← loadByte map (sizeT off)
    .ok (last = 0)
  | off, character :: word => do
    let byte ← loadByte map (sizeT off)
    if byte = character then nameEquals map (off + 1) word else .ok false

/-- `hash[k] ^= ptr[j + k]` for each `k`. -/
def xorChunk (map : Buffer) : (off : Nat) → (hash : List UInt8) → Checked (List UInt8)
  | _, [] => .ok []
  | off, byte :: hash => do
    let read ← loadByte map (sizeT off)
    let rest ← xorChunk map (off + 1) hash
    .ok ((byte ^^^ read) :: rest)

def xorChunks (map : Buffer) : (remaining off : Nat) → (hash : List UInt8) → Checked (List UInt8)
  | 0, _, hash => .ok hash
  | remaining + 1, off, hash => do
    let next ← xorChunk map off hash
    xorChunks map remaining (off + kXorHashSize) next

/-- The fallback. Its last chunk is read whole, past the end of the section if need be. -/
def xorTextSection (map : Buffer) (textOff textSize : Nat) : Checked (List UInt8) :=
  let limit := min textSize kXorMaxBytes
  xorChunks map ((limit + (kXorHashSize - 1)) / kXorHashSize) textOff (List.replicate kXorHashSize 0)

/-- A section ends the search with a build ID, or it goes on with the .text section seen so far. -/
inductive Visit where
  | found (bid : List UInt8)
  | goOn (textOff textSize : Nat)
  deriving DecidableEq, Repr

/-- The build ID that a section has; empty where it is no build ID note. -/
def noteBuildId (map : Buffer) (fileSize secName : Nat) (shdr : SectionFields) : Checked (List UInt8) :=
  if shdr.shType = shtNote then do
    let named ← nameEquals map secName (ascii ".note.gnu.build-id")
    if named ∧ sizeT (shdr.shOffset + shdr.shSize) ≤ fileSize then parseBuildIdNote map shdr.shOffset shdr.shSize else .ok []
  else .ok []

/-- An offset 0 stands for no .text section so far. -/
def isText (map : Buffer) (secName : Nat) (shdr : SectionFields) (textOff : Nat) : Checked Bool :=
  if shdr.shType = shtProgbits ∧ textOff = 0 then nameEquals map secName (ascii ".text") else .ok false

/-- The loop body. -/
def visitSection (map : Buffer) (fileSize strtab : Nat) (shdr : SectionFields) (textOff textSize : Nat) : Checked Visit :=
  if fileSize ≤ sizeT (strtab + shdr.shName) then .ok (.goOn textOff textSize)
  else do
    let secName := strtab + shdr.shName
    let bid ← noteBuildId map fileSize secName shdr
    if bid ≠ [] then .ok (.found bid)
    else do
      let text ← isText map secName shdr textOff
      .ok (if text then .goOn shdr.shOffset shdr.shSize else .goOn textOff textSize)

def searchSections (map : Buffer) (fileSize : Nat) (ehdr : Ehdr) (strtab : Nat) :
    (remaining i textOff textSize : Nat) → Checked (List UInt8)
  | 0, _, textOff, textSize =>
    if textOff = 0 ∨ textSize = 0 ∨ fileSize < sizeT (textOff + textSize) then .ok [] else xorTextSection map textOff textSize
  | remaining + 1, i, textOff, textSize => do
    let shdr ← readShdr map ehdr i
    match ← visitSection map fileSize strtab shdr textOff textSize with
    | .found bid => .ok bid
    | .goOn textOff textSize => searchSections map fileSize ehdr strtab remaining (i + 1) textOff textSize

/-- The function from the mapping on; empty on failure. -/
def computeElfBuildId (map : Buffer) (fileSize : Nat) : Checked (List UInt8) :=
  if fileSize < 64 then .ok []
  else do
    let magic ← load map 0 4
    if magic ≠ 0x7F :: ascii "ELF" then .ok []
    else do
      let elfClass ← loadByte map 4
      let ehdr ← readEhdr map (elfClass = elfClass64)
      if ehdr.eShoff = 0 ∨ ehdr.eShstrndx = shnUndef ∨ fileSize < sizeT (ehdr.eShoff + ehdr.eShnum * ehdr.eShentsize) then .ok []
      else do
        let strtabShdr ← readShdr map ehdr ehdr.eShstrndx
        if fileSize ≤ strtabShdr.shOffset then .ok []
        else searchSections map fileSize ehdr strtabShdr.shOffset ehdr.eShnum 0 0 0

end Crashomon.Daemon.ElfBuildId
