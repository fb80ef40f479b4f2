import Crashomon.Proofs.SymbolPaths

/-! Which files the symbol route sends. It compares resolved paths as text, without a slash after
the store's, so that the store's neighbours can pass for it. -/

namespace Crashomon.Proofs.SymbolServing
open Location Web.SymbolStore Web.SymbolRoutes SymbolPaths

variable {disk : Disk} {cwd store candidate : Location} {storePath module buildId filename : Text}

/-- What is sent lies below the store, name by name. -/
def ServesInside (disk : Disk) (cwd : Location) (storePath module buildId filename : Text) : Prop :=
  ∀ candidate content, serveSymbol disk cwd storePath module buildId filename = .sent candidate content →
    ∃ store, disk.resolve cwd (PurePath.parse storePath) = some store ∧ Below store candidate

/-- The names lead to a file at or below a neighbour of the store, or the store is the file. -/
def LeadsAside (disk : Disk) (cwd : Location) (storePath module buildId filename : Text) : Prop :=
  ∃ store candidate, disk.resolve cwd (PurePath.parse storePath) = some store ∧
    disk.resolve cwd (candidateOf storePath module buildId filename) = some candidate ∧
    (disk.fileAt candidate).isSome ∧ (candidate = store ∨ Neighbour store candidate)

theorem not_below_of_aside (aside : candidate = store ∨ Neighbour store candidate) : ¬ Below store candidate := by
  intro ⟨within, other⟩
  rcases aside with rfl | ⟨parent, name, more, rest, rfl, longer, rfl⟩
  · exact other rfl
  · rw [List.prefix_append_right_inj, List.cons_prefix_cons] at within
    exact longer (List.append_right_eq_self.mp within.1.symm)

theorem below_or_aside (within : store <+: candidate ∨ Neighbour store candidate) :
    Below store candidate ∨ candidate = store ∨ Neighbour store candidate := by
  rcases within with under | beside
  · by_cases same : store = candidate
    · exact Or.inr (Or.inl same.symm)
    · exact Or.inl ⟨under, same⟩
  · exact Or.inr (Or.inr beside)

/-- The route where both paths resolve. -/
theorem sent_iff {content : List UInt8} (root : disk.resolve cwd (PurePath.parse storePath) = some store)
    (led : disk.resolve cwd (candidateOf storePath module buildId filename) = some candidate) {other : Location} :
    serveSymbol disk cwd storePath module buildId filename = .sent other content ↔
      other = candidate ∧ (store <+: candidate ∨ Neighbour store candidate) ∧ ∃ mtime, disk.fileAt candidate = some (content, mtime) := by
  have compared := str_prefix_iff (solid_resolve (solid_parse storePath) root) (solid_resolve solid_candidateOf led)
  unfold serveSymbol
  rw [root, led, ← compared]
  dsimp only
  by_cases begins : store.str <+: candidate.str
  · rw [if_neg (not_not.mpr begins)]
    cases disk.fileAt candidate with
    | none => simp
    | some file => simp [begins, Prod.ext_iff, @eq_comm _ candidate]
  · rw [if_pos begins]
    simp [begins]

theorem serves_inside_iff (disk : Disk) (cwd : Location) (storePath module buildId filename : Text) :
    ServesInside disk cwd storePath module buildId filename ↔ ¬ LeadsAside disk cwd storePath module buildId filename := by
  constructor
  · intro inside ⟨store, candidate, root, led, file, aside⟩
    obtain ⟨⟨content, mtime⟩, found⟩ := Option.isSome_iff_exists.mp file
    have within : store <+: candidate ∨ Neighbour store candidate := by
      rcases aside with rfl | beside
      · exact Or.inl (List.prefix_refl _)
      · exact Or.inr beside
    obtain ⟨other, same, below⟩ := inside candidate content ((sent_iff root led).mpr ⟨rfl, within, mtime, found⟩)
    rw [root] at same
    exact not_below_of_aside aside (Option.some.inj same ▸ below)
  · intro kept candidate content sent
    cases root : disk.resolve cwd (PurePath.parse storePath) with
    | none =>
      unfold serveSymbol at sent
      rw [root] at sent
      split at sent
      next impossible => cases impossible
      next => cases sent
    | some store =>
      cases led : disk.resolve cwd (candidateOf storePath module buildId filename) with
      | none =>
        unfold serveSymbol at sent
        rw [led] at sent
        cases sent
      | some place =>
        obtain ⟨rfl, within, mtime, found⟩ := (sent_iff root led).mp sent
        refine ⟨store, rfl, ?_⟩
        rcases below_or_aside within with below | aside
        · exact below
        · exact absurd ⟨store, candidate, root, led, Option.isSome_iff_exists.mpr ⟨_, found⟩, aside⟩ kept

/-- A store, and beside it a directory whose name goes on where the store's ends. -/
def twoStores : Disk :=
  let blank : Disk := ⟨[], 8, fun _ => (0, 0), Nodes.unique_nil, Nodes.held_nil⟩
  ((blank.put [] "symbols".toList .directory).put [] "symbols-private".toList .directory).put ["symbols-private".toList] "key".toList
    (.file [1, 2, 3] 0)

/-- The module `..` climbs out of the store, and the neighbour's path begins with the store's. -/
theorem neighbour_is_served :
    serveSymbol twoStores [] "/symbols".toList "..".toList "symbols-private".toList "key".toList =
        .sent ["symbols-private".toList, "key".toList] [1, 2, 3] ∧
      ¬ ∀ disk cwd storePath module buildId filename, ServesInside disk cwd storePath module buildId filename := by
  have sent : serveSymbol twoStores [] "/symbols".toList "..".toList "symbols-private".toList "key".toList =
      .sent ["symbols-private".toList, "key".toList] [1, 2, 3] := by decide +kernel
  refine ⟨sent, fun all => ?_⟩
  obtain ⟨store, root, within, _⟩ := all _ _ _ _ _ _ _ _ sent
  have same : twoStores.resolve [] (PurePath.parse "/symbols".toList) = some ["symbols".toList] := by decide +kernel
  rw [← Option.some.inj (same.symm.trans root)] at within
  exact absurd within (by decide)

end Crashomon.Proofs.SymbolServing
