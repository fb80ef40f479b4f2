import Crashomon.Proofs.ElfAgreement

/-! The fallback build ID: sixteen bytes, each the exclusive or of one byte out of every
sixteen at the beginning of the text. -/

namespace Crashomon.Proofs.TextHash
open Bytes Memory ElfReads ElfAgreement
open Daemon.ElfBuildId (mapFile)

def exclusiveOr (bytes : List UInt8) : UInt8 := bytes.foldr (· ^^^ ·) 0

/-- The chunks that begin before the text ends, at most 4096 bytes of it. -/
def chunks (textSize : Nat) : List Nat := (List.range (min textSize 4096)).filter fun q => 16 * q < min textSize 4096

/-- Where the `k`th byte of a chunk lies. -/
def place (textOff k q : Nat) : Nat := textOff + 16 * q + k

theorem mem_chunks {textSize q : Nat} : q ∈ chunks textSize ↔ 16 * q < min textSize 4096 := by
  rw [chunks, List.mem_filter, List.mem_range, decide_eq_true_iff]
  omega

theorem filter_range {count total : Nat} (less : count ≤ total) : (List.range total).filter (fun q => q < count) = List.range count := by
  obtain ⟨rest, rfl⟩ := Nat.exists_eq_add_of_le less
  have kept : (List.range count).filter (fun q => q < count) = List.range count := by
    apply List.filter_eq_self.mpr
    intro q member
    exact decide_eq_true (List.mem_range.mp member)
  have dropped : ((List.range rest).map fun q => count + q).filter (fun q => q < count) = [] := by
    apply List.filter_eq_nil_iff.mpr
    intro q member
    obtain ⟨more, _, rfl⟩ := List.mem_map.mp member
    simp
  rw [List.range_add, List.filter_append, kept, dropped, List.append_nil]

theorem chunks_eq (textSize : Nat) : chunks textSize = List.range ((min textSize 4096 + 15) / 16) := by
  have same : ∀ q ∈ List.range (min textSize 4096),
      decide (16 * q < min textSize 4096) = decide (q < (min textSize 4096 + 15) / 16) := by
    intro q _
    rw [decide_eq_decide]
    omega
  rw [chunks, List.filter_congr same, filter_range (by omega)]

theorem column_eq (buf : Buffer) (count textOff k : Nat) :
    column buf count (textOff + k) = exclusiveOr ((List.range count).map fun q => byteAt buf (place textOff k q)) := by
  induction count generalizing textOff with
  | zero => rfl
  | succ count ih =>
    have first : place textOff k 0 = textOff + k := rfl
    have later (q : Nat) : place textOff k (q + 1) = place (textOff + 16) k q := by
      unfold place
      omega
    have onward := ih (textOff + 16)
    rw [Nat.add_right_comm] at onward
    rw [column, onward, List.range_succ_eq_map, List.map_cons, List.map_map, exclusiveOr, exclusiveOr, List.foldr_cons, first]
    simp only [Function.comp_def, Nat.succ_eq_add_one, later]

/-- The hash as the two loops form it. -/
theorem columns_eq (buf : Buffer) (textOff textSize : Nat) {k : Nat} (small : k < 16) :
    (columns buf ((min textSize 4096 + 15) / 16) textOff)[k]? =
      some (exclusiveOr ((chunks textSize).map fun q => byteAt buf (place textOff k q))) := by
  rw [columns, List.getElem?_map, List.getElem?_range small, Option.map_some, column_eq, chunks_eq]

/-- Byte `k` of the tool's hash combines byte `k` of every chunk, zero past the end of the file. The daemon's is the same where
all these bytes lie in the file. -/
theorem text_hashed (file : FileContent) (textOff textSize : Nat) (positive : 0 < textSize) :
    (Tools.ElfBuildId.xorTextHash file.bytes textOff textSize).length = 16 ∧
      (∀ k < 16, (Tools.ElfBuildId.xorTextHash file.bytes textOff textSize)[k]? =
        some (exclusiveOr ((chunks textSize).map fun q => byteAt file.bytes (place textOff k q)))) ∧
      ((∀ q ∈ chunks textSize, ∀ k < 16, place textOff k q < file.bytes.length) →
        Daemon.ElfBuildId.xorTextSection (mapFile file.bytes) textOff textSize =
          .ok (Tools.ElfBuildId.xorTextHash file.bytes textOff textSize)) := by
  rw [xorTextHash_eq]
  refine ⟨?_, ?_, ?_⟩
  · rw [columns, List.length_map, List.length_range]
  · intro k small
    exact columns_eq file.bytes textOff textSize small
  · intro inside
    -- The last chunk is the one before the rounded end, and its last byte is the end of them all.
    have last := inside ((min textSize 4096 + 15) / 16 - 1) (mem_chunks.mpr (by omega)) 15 (by decide)
    have mapped := mapFile_bounds file.bytes
    unfold place at last
    exact xorTextSection_eq file.fits (by omega)

def shortText : FileContent := ⟨[0x7F, 1, 2, 3, 4, 5, 6, 7, 8, 9, 10, 11, 12, 13, 14, 15, 16, 17, 18, 19, 20, 21, 22, 23], by decide⟩

/-- A text of five bytes is hashed up to a whole chunk. -/
theorem shortText_hashed :
    Daemon.ElfBuildId.xorTextSection (mapFile shortText.bytes) 3 5 = .ok (Tools.ElfBuildId.xorTextHash shortText.bytes 3 5) :=
  (text_hashed shortText 3 5 (by decide)).2.2 (by decide)

end Crashomon.Proofs.TextHash
