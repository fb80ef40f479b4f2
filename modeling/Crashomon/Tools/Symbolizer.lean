import Crashomon.Base.Python

/-! The reader of Crashpad annotations in tools/crashomon_tools/analyze/symbolizer.py. -/

namespace Crashomon.Tools.Symbolizer
open Bytes Python

def minidumpMagic : List UInt8 := [77, 68, 77, 80]
def crashpadInfoStreamType : Nat := 0x43500007

def readUtf8String (data : Buffer) (rva : Nat) : Raises Text :=
  if rva = 0 ∨ rva + 4 > data.length then .ok []
  else do
    let length ← unpackFrom data rva
    if length = 0 ∨ rva + 4 + length > data.length then .ok []
    else .ok (decodeUtf8 (slice data (rva + 4) length))

/-- The loop over the stream directory, which raises where an entry is cut off. -/
def findCrashpadStream (data : Buffer) (dirRva : Nat) : (remaining i : Nat) → Raises Nat
  | 0, _ => .ok 0
  | remaining + 1, i => do
    let off := dirRva + i * 12
    let stype ← unpackFrom data off
    let _ ← unpackFrom data (off + 4)
    let srva ← unpackFrom data (off + 8)
    if stype = crashpadInfoStreamType then .ok srva else findCrashpadStream data dirRva remaining (i + 1)

def readDictionary (data : Buffer) (dictRva : Nat) : (remaining i : Nat) → List (Text × Text) → Raises (List (Text × Text))
  | 0, _, result => .ok result
  | remaining + 1, i, result =>
    let entryOff := dictRva + 4 + i * 8
    if entryOff + 8 > data.length then .ok result
    else do
      let keyRva ← unpackFrom data entryOff
      let valRva ← unpackFrom data (entryOff + 4)
      let key ← readUtf8String data keyRva
      let value ← readUtf8String data valRva
      readDictionary data dictRva remaining (i + 1) (dictSet result key value)

def parseAnnotations (data : Buffer) : Raises (List (Text × Text)) := do
  let streamCount ← unpackFrom data 8
  let dirRva ← unpackFrom data 12
  let streamRva ← findCrashpadStream data dirRva streamCount 0
  if streamRva = 0 ∨ streamRva + 44 > data.length then .ok []
  else do
    let version ← unpackFrom data streamRva
    if version ≠ 1 then .ok []
    else do
      let dictSize ← unpackFrom data (streamRva + 36)
      let dictRva ← unpackFrom data (streamRva + 40)
      if dictRva = 0 ∨ dictSize < 4 then .ok []
      else do
        let count ← unpackFrom data dictRva
        readDictionary data dictRva count 0 []

/-- A struct.error anywhere makes the result empty. -/
def readMinidumpAnnotations (data : Buffer) : Raises (List (Text × Text)) :=
  if data.length < 32 ∨ slice data 0 4 ≠ minidumpMagic then .ok []
  else match parseAnnotations data with
    | .error .structError => .ok []
    | result => result

def annotation (annotations : List (Text × Text)) (key : Text) : Text := (annotations.lookup key).getD []

end Crashomon.Tools.Symbolizer
