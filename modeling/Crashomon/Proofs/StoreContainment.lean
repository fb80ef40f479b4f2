import Crashomon.Base.MakeDirectories
import Crashomon.Web.SymbolStore

/-! Where storing a symbol file creates directories and writes. The module name and
the build ID come from the file itself and are joined to the root as they are. -/

namespace Crashomon.Proofs.StoreContainment
open Python FileTree Web.SymbolStore

variable {tree : FileTree} {cwd : Location} {storePath : Text}

/-- The location is strictly below the resolved root; nothing is below a root that is no directory. -/
def Inside (tree : FileTree) (cwd : Location) (storePath : Text) (location : Location) : Prop :=
  ∃ root, tree.walk (startOf cwd (PurePath.parse storePath)) (PurePath.parse storePath).tail = .ok root ∧
    root <+: location ∧ root ≠ location

/-- The call raises and has made nothing, or all it makes and writes is inside the root. -/
inductive Contained (tree : FileTree) (cwd : Location) (storePath : Text) : Outcome → Prop where
  | raised {error : StoreError} : Contained tree cwd storePath ⟨.error error, [], none⟩
  | stored {dest : PurePath} {made : List Location} {location : Location} {content : Text}
      (directories : ∀ directory ∈ made, Inside tree cwd storePath directory)
      (file : Inside tree cwd storePath location) : Contained tree cwd storePath ⟨.ok dest, made, some (location, content)⟩

/-- The directories missing on the way of the destination directory. -/
def missingDirs (tree : FileTree) (cwd : Location) (storePath moduleName buildId : Text) : List Location :=
  let destDir := destDirOf storePath moduleName buildId
  tree.missing (startOf cwd destDir) destDir.tail

def destPlace (tree : FileTree) (cwd : Location) (storePath moduleName buildId : Text) : Option Location :=
  let destDir := destDirOf storePath moduleName buildId
  tree.place (startOf cwd destDir) destDir.tail

def openDest (tree : FileTree) (cwd : Location) (storePath moduleName buildId : Text) : Except OsError Location :=
  let dest := destOf storePath moduleName buildId
  tree.openForWriting (startOf cwd dest) dest.tail

/-- What a module name and a build ID must be for the call to keep to the root. -/
inductive StaysInside (tree : FileTree) (cwd : Location) (storePath moduleName buildId : Text) : Prop where
  | null (null : HasNull (destDirOf storePath moduleName buildId).tail)
  /-- A file or a dangling link is in the way, and nothing is missing before it. -/
  | blocked (nowhere : destPlace tree cwd storePath moduleName buildId = none)
      (complete : missingDirs tree cwd storePath moduleName buildId = [])
  | refused (first : Location) (head : (missingDirs tree cwd storePath moduleName buildId).head? = some first)
      (refuses : tree.refuses first = true)
  | unwritable (here : Location) (placed : destPlace tree cwd storePath moduleName buildId = some here)
      (complete : missingDirs tree cwd storePath moduleName buildId = []) (error : OsError)
      (failed : openDest tree cwd storePath moduleName buildId = .error error)
  /-- All that is missing is inside the root and can be made, and then the file is inside it too. -/
  | inside (clean : ¬ HasNull (destDirOf storePath moduleName buildId).tail) (here : Location)
      (placed : destPlace tree cwd storePath moduleName buildId = some here)
      (directories : ∀ directory ∈ missingDirs tree cwd storePath moduleName buildId,
        tree.refuses directory = false ∧ Inside tree cwd storePath directory)
      (location : Location)
      (opened : openDest (tree.adding (missingDirs tree cwd storePath moduleName buildId)) cwd storePath moduleName buildId =
        .ok location)
      (file : Inside tree cwd storePath location)

/-- The condition on a symbol file: no valid first line, or a first line that keeps to the root. -/
def Harmless (tree : FileTree) (cwd : Location) (storePath symText : Text) : Prop :=
  ∀ moduleName buildId, parseModuleLine symText = .ok (moduleName, buildId) →
    StaysInside tree cwd storePath moduleName buildId

theorem contained_error_iff {error : StoreError} {made : List Location} :
    Contained tree cwd storePath ⟨.error error, made, none⟩ ↔ made = [] := by
  constructor
  · intro contained
    cases contained
    rfl
  · rintro rfl
    exact .raised

theorem contained_ok_iff {dest : PurePath} {made : List Location} {location : Location} {content : Text} :
    Contained tree cwd storePath ⟨.ok dest, made, some (location, content)⟩ ↔
      (∀ directory ∈ made, Inside tree cwd storePath directory) ∧ Inside tree cwd storePath location := by
  constructor
  · intro contained
    cases contained with
    | stored directories file => exact ⟨directories, file⟩
  · intro ⟨directories, file⟩
    exact .stored directories file

theorem mkdirParents_null {start : Location} {path : List Text} (null : HasNull path) :
    tree.mkdirParents start path.reverse = (.error .embeddedNull, []) := by
  cases seen : path.reverse with
  | nil =>
    obtain ⟨name, member, _⟩ := null
    exact absurd (List.mem_reverse.mpr member) (by rw [seen]; exact List.not_mem_nil)
  | cons name above =>
    have failed : tree.makeDirectory start (name :: above).reverse = .error .embeddedNull := by
      rw [← seen, List.reverse_reverse]
      exact if_pos null
    rw [mkdirParents, failed]
    dsimp only
    rw [mkdir, failed]

section Call
variable {symText moduleName buildId : Text}

theorem addSymText_null (parsed : parseModuleLine symText = .ok (moduleName, buildId))
    (null : HasNull (destDirOf storePath moduleName buildId).tail) :
    addSymText tree cwd storePath symText = ⟨.error (.os .embeddedNull), [], none⟩ := by
  rw [addSymText, parsed]
  dsimp only
  rw [mkdirParents_null null]

theorem addSymText_clean (parsed : parseModuleLine symText = .ok (moduleName, buildId))
    (clean : ¬ HasNull (destDirOf storePath moduleName buildId).tail) :
    Contained tree cwd storePath (addSymText tree cwd storePath symText) ↔ StaysInside tree cwd storePath moduleName buildId := by
  have cleanNames : ¬ HasNull (destDirOf storePath moduleName buildId).tail.reverse :=
    fun ⟨name, member, null⟩ => clean ⟨name, List.mem_reverse.mp member, null⟩
  have settled := @mkdirParents_settled tree (startOf cwd (destDirOf storePath moduleName buildId)) _ cleanNames
  rw [List.reverse_reverse] at settled
  rw [addSymText, parsed]
  dsimp only
  generalize tree.mkdirParents (startOf cwd (destDirOf storePath moduleName buildId))
    (destDirOf storePath moduleName buildId).tail.reverse = outcome at settled ⊢
  cases settled with
  | @stopped error made stuck nothing _ =>
    change Contained tree cwd storePath ⟨.error (.os error), made, none⟩ ↔ _
    rw [contained_error_iff, nothing]
    constructor
    · rintro (complete | ⟨first, head, refuses⟩)
      · rcases stuck with nowhere | ⟨directory, member, _⟩
        · exact .blocked nowhere complete
        · rw [complete] at member
          exact absurd member List.not_mem_nil
      · exact .refused first head refuses
    · intro stays
      cases stays with
      | null null => exact absurd null clean
      | blocked _ complete => exact Or.inl complete
      | refused first head refuses => exact Or.inr ⟨first, head, refuses⟩
      | unwritable _ _ complete _ _ => exact Or.inl complete
      | inside _ here placed directories _ _ _ =>
        exfalso
        rcases stuck with nowhere | ⟨directory, member, refuses⟩
        · exact nomatch nowhere.symm.trans placed
        · exact nomatch refuses.symm.trans (directories directory member).1
  | @made here made placed allowed same =>
    have opening : (tree.adding made).openForWriting (startOf cwd (destOf storePath moduleName buildId))
        (destOf storePath moduleName buildId).tail =
        openDest (tree.adding (missingDirs tree cwd storePath moduleName buildId)) cwd storePath moduleName buildId :=
      congrArg (openDest · cwd storePath moduleName buildId) (adding_congr same)
    have same_tree (complete : missingDirs tree cwd storePath moduleName buildId = []) :
        tree.adding (missingDirs tree cwd storePath moduleName buildId) = tree := by
      rw [complete, adding_nil]
    dsimp only
    rw [opening]
    cases opened : openDest (tree.adding (missingDirs tree cwd storePath moduleName buildId)) cwd storePath moduleName buildId with
    | error error =>
      change Contained tree cwd storePath ⟨.error (.os error), made, none⟩ ↔ _
      rw [contained_error_iff]
      constructor
      · rintro rfl
        have complete : missingDirs tree cwd storePath moduleName buildId = [] :=
          List.eq_nil_iff_forall_not_mem.mpr fun directory member => List.not_mem_nil ((same directory).mpr member)
        rw [same_tree complete] at opened
        exact .unwritable here placed complete error opened
      · intro stays
        have made_nothing (complete : missingDirs tree cwd storePath moduleName buildId = []) : made = [] := by
          refine List.eq_nil_iff_forall_not_mem.mpr fun directory member => ?_
          have wanted : directory ∈ missingDirs tree cwd storePath moduleName buildId := (same directory).mp member
          rw [complete] at wanted
          exact List.not_mem_nil wanted
        cases stays with
        | null null => exact absurd null clean
        | blocked _ complete => exact made_nothing complete
        | refused first head refuses =>
          have member : first ∈ missingDirs tree cwd storePath moduleName buildId := List.mem_of_head? head
          exact nomatch refuses.symm.trans (allowed first member)
        | unwritable _ _ complete _ _ => exact made_nothing complete
        | inside _ _ _ _ location other _ => exact nomatch opened.symm.trans other
    | ok location =>
      change Contained tree cwd storePath ⟨.ok _, made, some (location, symText)⟩ ↔ _
      rw [contained_ok_iff]
      constructor
      · intro ⟨directories, file⟩
        exact .inside clean here placed
          (fun directory member => ⟨allowed directory member, directories directory ((same directory).mpr member)⟩)
          location opened file
      · intro stays
        cases stays with
        | null null => exact absurd null clean
        | blocked nowhere _ => exact nomatch nowhere.symm.trans placed
        | refused first head refuses =>
          have member : first ∈ missingDirs tree cwd storePath moduleName buildId := List.mem_of_head? head
          exact nomatch refuses.symm.trans (allowed first member)
        | unwritable _ _ complete error failed =>
          rw [same_tree complete] at opened
          exact nomatch opened.symm.trans failed
        | inside _ _ _ directories other reopened file =>
          rw [Except.ok.inj (opened.symm.trans reopened)]
          exact ⟨fun directory member => (directories directory ((same directory).mp member)).2, file⟩

end Call

/-- Storing a symbol file keeps to the root exactly when its module name and
build ID lead there, on a tree that takes names of any length. -/
theorem contained_iff (tree : FileTree) (cwd : Location) (storePath symText : Text) :
    Contained tree cwd storePath (addSymText tree cwd storePath symText) ↔ Harmless tree cwd storePath symText := by
  cases parsed : parseModuleLine symText with
  | error error =>
    have raised : addSymText tree cwd storePath symText = ⟨.error error, [], none⟩ := by rw [addSymText, parsed]
    rw [raised]
    exact iff_of_true .raised fun moduleName buildId valid => nomatch parsed.symm.trans valid
  | ok names =>
    obtain ⟨moduleName, buildId⟩ := names
    have stays : Harmless tree cwd storePath symText ↔ StaysInside tree cwd storePath moduleName buildId := by
      constructor
      · intro harmless
        exact harmless moduleName buildId parsed
      · intro inside otherName otherId valid
        obtain ⟨rfl, rfl⟩ := Prod.mk.inj (Except.ok.inj (parsed.symm.trans valid))
        exact inside
    rw [stays]
    by_cases null : HasNull (destDirOf storePath moduleName buildId).tail
    · rw [addSymText_null parsed null]
      exact iff_of_true .raised (.null null)
    · exact addSymText_clean parsed null

def emptyStore : FileTree where
  entry here name := if here = [] ∧ name = "store".toList then some (.directory ["store".toList]) else none
  refuses _ := false

private theorem outside_store {location : Location} (outside : ¬ ["store".toList] <+: location) :
    ¬ Inside emptyStore [] "/store".toList location := by
  have root : emptyStore.walk (startOf [] (PurePath.parse "/store".toList)) (PurePath.parse "/store".toList).tail =
      .ok ["store".toList] := by
    decide +kernel
  intro ⟨other, walked, below, _⟩
  rw [← Except.ok.inj (root.symm.trans walked)] at below
  exact outside below

/-- The module name `..` climbs out, and an absolute one replaces the root. -/
theorem module_name_escapes :
    ¬ Contained emptyStore [] "/store".toList
        (addSymText emptyStore [] "/store".toList "MODULE Linux x86_64 evil ..".toList) ∧
      ¬ Contained emptyStore [] "/store".toList
        (addSymText emptyStore [] "/store".toList "MODULE Linux x86_64 id /evil".toList) := by
  have climbs : addSymText emptyStore [] "/store".toList "MODULE Linux x86_64 evil ..".toList =
      ⟨.ok ⟨['/'], ["store".toList, "..".toList, "evil".toList, "...sym".toList]⟩, [["evil".toList]],
        some (["evil".toList, "...sym".toList], "MODULE Linux x86_64 evil ..".toList)⟩ := by
    decide +kernel
  have replaces : addSymText emptyStore [] "/store".toList "MODULE Linux x86_64 id /evil".toList =
      ⟨.ok ⟨['/'], ["evil.sym".toList]⟩, [["evil".toList], ["evil".toList, "id".toList]],
        some (["evil.sym".toList], "MODULE Linux x86_64 id /evil".toList)⟩ := by
    decide +kernel
  rw [climbs, replaces, contained_ok_iff, contained_ok_iff]
  exact ⟨fun ⟨_, file⟩ => outside_store (by decide) file, fun ⟨_, file⟩ => outside_store (by decide) file⟩

end Crashomon.Proofs.StoreContainment
