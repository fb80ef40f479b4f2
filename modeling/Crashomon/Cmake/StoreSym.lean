import Crashomon.Base.Regex

/-! Where cmake/store_sym_impl.cmake puts the output of dump_syms. A byte outside ASCII is a
character outside ASCII here; both end a string of file(STRINGS). -/

namespace Crashomon.Cmake.StoreSym
open Regex

/-- The characters that file(STRINGS) collects. -/
def isStringCharacter (character : Char) : Bool :=
  0x20 ≤ character.toNat && character.toNat < 0x7F || character = '\t'

/-- The first string of the content, `current` read so far. Carriage returns are skipped; a
newline ends a string, any other character only one that has begun. -/
def firstString : Text → (current : Text) → Text
  | [], current => current
  | character :: rest, current =>
    if character = '\r' then firstString rest current
    else if isStringCharacter character then firstString rest (current ++ [character])
    else if character = '\n' then current
    else if current = [] then firstString rest current
    else current

/-- A string as an element of a CMake list. -/
def escape (text : Text) : Text := text.flatMap fun character => if character = ';' then ['\\', ';'] else [character]

/-- `file(STRINGS … LIMIT_COUNT 1)` -/
def fileStrings (content : Text) : Text := escape (firstString content [])

/-- `^MODULE [^ ]+ [^ ]+ ([^ ]+) (.+)` -/
def modulePattern : Pattern :=
  .seq .start <| .literal "MODULE ".toList <| .seq (.many (· ≠ ' ') 1) <| .seq (.one (· = ' ')) <|
    .seq (.many (· ≠ ' ') 1) <| .seq (.one (· = ' ')) <| .seq (.group (.many (· ≠ ' ') 1)) <| .seq (.one (· = ' ')) <|
    .group (.many (fun _ => true) 1)

/-- The values that `if(NOT …)` takes for false. -/
def isOff (value : Text) : Bool :=
  let upper := value.map Char.toUpper
  upper ∈ ["".toList, "0".toList, "N".toList, "NO".toList, "OFF".toList, "FALSE".toList, "IGNORE".toList, "NOTFOUND".toList] ∨
    "-NOTFOUND".toList.isSuffixOf upper

/-- The build ID and the module name; nothing where the script ends with a fatal error. -/
def moduleOf (content : Text) : Option (Text × Text) :=
  match modulePattern.search (fileStrings content) with
  | some [buildId, moduleName] => if isOff buildId ∨ isOff moduleName then none else some (buildId, moduleName)
  | _ => none

/-- The path that file(RENAME) moves the output to. -/
def destination (store content : Text) : Option Text :=
  (moduleOf content).map fun (buildId, moduleName) =>
    store ++ '/' :: moduleName ++ '/' :: buildId ++ '/' :: moduleName ++ ".sym".toList

end Crashomon.Cmake.StoreSym
