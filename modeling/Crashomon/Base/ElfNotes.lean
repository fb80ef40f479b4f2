import Crashomon.Base.Bytes

/-! The records of an ELF note region: three words, a name and a description,
both padded to four bytes. Sizes are exact, so that no padding wraps. -/

namespace Crashomon.ElfNotes
open Bytes

structure Note where
  position : Nat
  nameSize : Nat
  descSize : Nat
  type : Nat
  deriving DecidableEq, Repr

def padded (size : Nat) : Nat := (size + 3) / 4 * 4

def noteAt (buf : Buffer) (position : Nat) : Note :=
  ⟨position, unsignedAt buf position 4, unsignedAt buf (position + 4) 4, unsignedAt buf (position + 8) 4⟩

namespace Note

def descOffset (note : Note) : Nat := note.position + 12 + padded note.nameSize

def next (note : Note) : Nat := note.descOffset + padded note.descSize

/-- A build ID that ends before the region does. -/
def Identifies (stop : Nat) (note : Note) : Prop := note.type = 3 ∧ 0 < note.descSize ∧ note.descOffset + note.descSize ≤ stop

instance (stop : Nat) (note : Note) : Decidable (note.Identifies stop) := inferInstanceAs (Decidable (_ ∧ _ ∧ _))

def desc (buf : Buffer) (note : Note) : List UInt8 := slice buf note.descOffset note.descSize

end Note

/-- The notes from a position on, as far as their headers are whole. Each takes 12 bytes or more. -/
def notesFrom (buf : Buffer) (stop : Nat) : (rounds position : Nat) → List Note
  | 0, _ => []
  | rounds + 1, position =>
    if stop < position + 12 then []
    else noteAt buf position :: notesFrom buf stop rounds (noteAt buf position).next

/-- The first build ID of a region. -/
def firstBuildId (buf : Buffer) (start size : Nat) : Option (List UInt8) :=
  ((notesFrom buf (start + size) size start).find? (Note.Identifies (start + size))).map (Note.desc buf)

theorem desc_ne_nil {buf : Buffer} {stop : Nat} {note : Note} (identifies : note.Identifies stop) (inside : stop ≤ buf.length) :
    note.desc buf ≠ [] := by
  obtain ⟨_, positive, fits⟩ := identifies
  have length : (slice buf note.descOffset note.descSize).length = note.descSize := length_slice (by omega)
  intro empty
  rw [Note.desc] at empty
  rw [empty, List.length_nil] at length
  omega

theorem firstBuildId_ne_nil {buf : Buffer} {start size : Nat} (inside : start + size ≤ buf.length) {bid : List UInt8}
    (found : firstBuildId buf start size = some bid) : bid ≠ [] := by
  obtain ⟨note, first, same⟩ := Option.map_eq_some_iff.mp found
  rw [← same]
  exact desc_ne_nil (by simpa using List.find?_some first) inside

end Crashomon.ElfNotes
