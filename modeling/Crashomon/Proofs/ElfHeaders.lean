import Crashomon.Proofs.ElfDivergence

/-! Where the tools' build-ID reader raises: at a section header that ends past the file,
which the check of the whole table does not exclude. -/

namespace Crashomon.Proofs.ElfHeaders
open Bytes ElfReads ElfAgreement ElfDivergence

/-- The headers that are read lie in the file: that of the names, and, where the names have an
offset, that of each section up to the first with a build ID. -/
structure HeadersInside (file : Buffer) : Prop where
  names : headerEnd file (ehdrAt file).eShstrndx ≤ file.length
  sections : strtab file ≠ 0 → ∀ index < (ehdrAt file).eShnum, Reached file index → headerEnd file index ≤ file.length

/-- The file is given up before its section table, or the headers that are read of it lie in the file. -/
def Readable (file : Buffer) : Prop :=
  ¬ Recognised file ∨ (ehdrAt file).eShoff = 0 ∨ (ehdrAt file).eShnum = 0 ∨ (ehdrAt file).eShstrndx = 0 ∨
    file.length < tableEnd file ∨ HeadersInside file

variable {file : Buffer}

theorem headersInside_of_answer (valid : Recognised file)
    (given : ¬ ((ehdrAt file).eShoff = 0 ∨ (ehdrAt file).eShnum = 0 ∨ (ehdrAt file).eShstrndx = 0)) (table : tableEnd file ≤ file.length)
    {answer : Option (List UInt8)} (answered : Tools.ElfBuildId.computeElfBuildId file = .ok answer) : HeadersInside file := by
  obtain ⟨names, _, searched⟩ := tool_answered valid given table answered
  exact ⟨names, fun later => (searched later).1⟩

theorem answer_of_headersInside (valid : Recognised file)
    (given : ¬ ((ehdrAt file).eShoff = 0 ∨ (ehdrAt file).eShnum = 0 ∨ (ehdrAt file).eShstrndx = 0)) (table : tableEnd file ≤ file.length)
    (inside : HeadersInside file) : ∃ answer, Tools.ElfBuildId.computeElfBuildId file = .ok answer := by
  by_cases later : strtab file = 0
  · exact ⟨none, tool_fruitless valid given table inside.names (Or.inl later)⟩
  · exact ⟨_, tool_located_searched valid given table inside.names later (inside.sections later)⟩

/-- The function returns for exactly the readable files. -/
theorem answers_iff_readable (file : Buffer) :
    (∃ answer, Tools.ElfBuildId.computeElfBuildId file = .ok answer) ↔ Readable file := by
  by_cases absent : ¬ Recognised file ∨ (ehdrAt file).eShoff = 0 ∨ (ehdrAt file).eShnum = 0 ∨ (ehdrAt file).eShstrndx = 0 ∨
      file.length < tableEnd file
  · refine iff_of_true ⟨none, tool_absent absent⟩ ?_
    unfold Readable
    tauto
  · obtain ⟨valid, given⟩ := not_or.mp absent
    have started : ¬ ((ehdrAt file).eShoff = 0 ∨ (ehdrAt file).eShnum = 0 ∨ (ehdrAt file).eShstrndx = 0) := by tauto
    have table : tableEnd file ≤ file.length := Nat.le_of_not_lt (by tauto)
    constructor
    · rintro ⟨answer, answered⟩
      have inside := headersInside_of_answer (not_not.mp valid) started table answered
      unfold Readable
      tauto
    · intro readable
      have inside : HeadersInside file := by
        unfold Readable at readable
        tauto
      exact answer_of_headersInside (not_not.mp valid) started table inside

/-- The index of the names is past the table, and their header past the file. -/
theorem noNames_raises : Tools.ElfBuildId.computeElfBuildId noNames = .error .structError ∧
    ¬ ∀ file, ∃ answer, Tools.ElfBuildId.computeElfBuildId file = .ok answer := by
  have raised : Tools.ElfBuildId.computeElfBuildId noNames = .error .structError := by decide +kernel
  refine ⟨raised, fun all => ?_⟩
  obtain ⟨answer, answered⟩ := all noNames
  cases raised.symm.trans answered

end Crashomon.Proofs.ElfHeaders
