import Crashomon.Web.SymbolRoutes

/-! The paths that the symbol store and its routes form from names. -/

namespace Crashomon.Proofs.SymbolPaths
open FileTree Location Web.SymbolStore Web.SymbolRoutes

section Names
variable {storePath module buildId filename : Text}

theorem solid_join {first second : PurePath} (left : ∀ name ∈ first.tail, Solid name) (right : ∀ name ∈ second.tail, Solid name) :
    ∀ name ∈ (first.join second).tail, Solid name := by
  intro name member
  unfold PurePath.join at member
  split at member
  next => exact right name member
  next =>
    rcases List.mem_append.mp member with first | second
    · exact left name first
    · exact right name second

theorem solid_parse (text : Text) : ∀ name ∈ (PurePath.parse text).tail, Solid name := by
  rw [PurePath.parse_tail]
  exact fun name => solid_components

theorem solid_destDirOf : ∀ name ∈ (destDirOf storePath module buildId).tail, Solid name :=
  solid_join (solid_join (solid_parse storePath) (solid_parse module)) (solid_parse buildId)

theorem solid_candidateOf : ∀ name ∈ (candidateOf storePath module buildId filename).tail, Solid name :=
  solid_join solid_destDirOf (solid_parse filename)

end Names

def symName (module : Text) : Text := module ++ ".sym".toList

theorem isName_symName {module : Text} (proper : IsName module) : IsName (symName module) := by
  obtain ⟨_, _, _, free, clean⟩ := proper
  have long : 4 ≤ (symName module).length := by simp [symName]
  refine ⟨?_, ?_, ?_, ?_, ?_⟩
  · intro empty
    rw [empty] at long
    exact absurd long (by decide)
  · intro dot
    rw [dot] at long
    exact absurd long (by decide)
  · intro dots
    rw [dots] at long
    exact absurd long (by decide)
  · intro slash
    rcases List.mem_append.mp slash with first | second
    · exact free first
    · exact absurd second (by decide)
  · intro null
    rcases List.mem_append.mp null with first | second
    · exact clean first
    · exact absurd second (by decide)

section Versions
variable {storePath module buildId : Text}

def versionDir (storePath module buildId : Text) : PurePath := ((PurePath.parse storePath).child module).child buildId

def symFileOf (storePath module buildId : Text) : PurePath := (versionDir storePath module buildId).child (symName module)

theorem symFileOf_tail (storePath module buildId : Text) :
    (symFileOf storePath module buildId).tail = (PurePath.parse storePath).tail ++ [module, buildId, symName module] := by
  simp only [symFileOf, versionDir, PurePath.child, List.append_assoc, List.cons_append, List.nil_append]

theorem destDirOf_eq (properModule : IsName module) (properId : IsName buildId) :
    destDirOf storePath module buildId = versionDir storePath module buildId := by
  rw [destDirOf, join_name _ properModule, join_name _ properId, versionDir]

theorem destOf_eq (properModule : IsName module) (properId : IsName buildId) :
    destOf storePath module buildId = symFileOf storePath module buildId := by
  have joined := join_name (versionDir storePath module buildId) (isName_symName properModule)
  rw [destOf, destDirOf_eq properModule properId]
  exact joined

theorem clean_snoc {path : List Text} {name : Text} (clean : ¬ HasNull path) (proper : IsName name) : ¬ HasNull (path ++ [name]) := by
  rintro ⟨other, member, null⟩
  rcases List.mem_append.mp member with earlier | last
  · exact clean ⟨other, earlier, null⟩
  · exact proper.2.2.2.2 (List.mem_singleton.mp last ▸ null)

end Versions

end Crashomon.Proofs.SymbolPaths
