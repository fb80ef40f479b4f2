import Crashomon.Web.Models
import Mathlib.Data.Char
import Mathlib.Data.List.Lex
import Mathlib.Data.List.MinMax
import Mathlib.Data.List.Perm.Subperm

/-! The crash trend: which days a row limit selects, and when these are the days of a window of the calendar. -/

namespace Crashomon.Proofs.DailyCounts
open Python Web.Models

section Prefixes
variable {α : Type} {entries : List α} {chosen : α → Bool}

/-- Where nothing chosen follows anything else, the chosen come first. -/
theorem chosen_first (upper : entries.Pairwise fun first second => chosen second = true → chosen first = true) :
    entries = entries.filter chosen ++ entries.filter fun entry => !chosen entry := by
  induction entries with
  | nil => rfl
  | cons entry entries ih =>
    obtain ⟨here, later⟩ := List.pairwise_cons.mp upper
    cases kept : chosen entry with
    | true =>
      rw [List.filter_cons_of_pos kept, List.filter_cons_of_neg (by simp [kept]), List.cons_append, ← ih later]
    | false =>
      have rest : entries.filter chosen = [] := by
        apply List.filter_eq_nil_iff.mpr
        intro other member same
        rw [here other member same] at kept
        cases kept
      have split := ih later
      rw [rest, List.nil_append] at split
      rw [List.filter_cons_of_neg (by simp [kept]), List.filter_cons_of_pos (by simp [kept]), rest, ← split, List.nil_append]

/-- A limit selects just the chosen if it is exhausted by them or there are no others. -/
theorem take_chosen_iff (upper : entries.Pairwise fun first second => chosen second = true → chosen first = true) {limit : Nat}
    (bound : (entries.filter chosen).length ≤ limit) :
    (∀ entry, entry ∈ entries.take limit ↔ entry ∈ entries ∧ chosen entry = true) ↔
      (entries.filter chosen).length = limit ∨ ∀ entry ∈ entries, chosen entry = true := by
  have split := chosen_first upper
  have dropped : ∀ entry, entry ∈ entries.filter (fun entry => !chosen entry) → ¬ chosen entry = true := by
    intro entry member same
    have other := (List.mem_filter.mp member).2
    rw [same] at other
    cases other
  have front : entries.take limit =
      entries.filter chosen ++ (entries.filter fun entry => !chosen entry).take (limit - (entries.filter chosen).length) := by
    nth_rewrite 1 [split]
    rw [List.take_append, List.take_of_length_le bound]
  have exhausted : (entries.filter chosen).length = limit ↔ limit - (entries.filter chosen).length = 0 := by omega
  have all_chosen : (∀ entry ∈ entries, chosen entry = true) ↔ (entries.filter fun entry => !chosen entry) = [] := by
    simp
  rw [exhausted, all_chosen, ← List.take_eq_nil_iff, front]
  constructor
  · intro selected
    apply List.eq_nil_iff_forall_not_mem.mpr
    intro entry member
    exact dropped entry (List.mem_of_mem_take member) ((selected entry).mp (List.mem_append_right _ member)).2
  · intro none entry
    rw [none, List.append_nil, List.mem_filter]

end Prefixes

section Order
variable {sql : DateFunction} {crashes : List Crash}

theorem before_iff (first second : Text) : before first second = true ↔ first < second := by
  induction first generalizing second with
  | nil => cases second <;> simp [before]
  | cons head rest ih =>
    cases second with
    | nil => simp [before]
    | cons other others =>
      have same : head.toNat = other.toNat ↔ head = other := Char.toNat_inj
      have less : head.toNat < other.toNat ↔ head < other := Iff.rfl
      rw [before, List.cons_lt_cons_iff, ← ih, Bool.or_eq_true, Bool.and_eq_true, decide_eq_true_iff, decide_eq_true_iff, same, less]

theorem noEarlier_some (first second : Text) : noEarlier (some first) (some second) = true ↔ second ≤ first := by
  rw [noEarlier, Bool.not_eq_true', ← Bool.not_eq_true, before_iff, not_lt]

instance : Std.Total fun first second : Option Text => noEarlier first second = true where
  total first second := by
    cases first with
    | none => exact Or.inr (by cases second <;> rfl)
    | some first =>
      cases second with
      | none => exact Or.inl rfl
      | some second =>
        rw [noEarlier_some, noEarlier_some]
        exact le_total second first

instance : IsTrans (Option Text) fun first second => noEarlier first second = true where
  trans first second third := by
    intro one other
    cases third with
    | none => cases first <;> rfl
    | some third =>
      cases second with
      | none => cases other
      | some second =>
        cases first with
        | none => cases one
        | some first =>
          rw [noEarlier_some] at one other ⊢
          exact le_trans other one

theorem newestFirst_sorted (sql : DateFunction) (crashes : List Crash) :
    (newestFirst sql crashes).Pairwise fun first second => noEarlier first second = true :=
  List.pairwise_insertionSort _ _

theorem mem_newestFirst {date : Option Text} : date ∈ newestFirst sql crashes ↔ date ∈ dates sql crashes := by
  rw [newestFirst, List.mem_insertionSort, List.mem_dedup]

theorem newestFirst_nodup (sql : DateFunction) (crashes : List Crash) : (newestFirst sql crashes).Nodup :=
  (List.perm_insertionSort _ _).nodup_iff.mpr (List.nodup_dedup _)

end Order

section Windows
variable {sql : DateFunction} {crashes : List Crash} {days : Nat}

/-- The dates that crashes have. -/
def knownDates (sql : DateFunction) (crashes : List Crash) : List Text := (dates sql crashes).filterMap id

/-- A day with crashes, one of the last so many days that end with the day of the newest crash. -/
def InWindow (sql : DateFunction) (crashes : List Crash) (days : Nat) (date : Text) : Prop :=
  date ∈ knownDates sql crashes ∧ ∀ other ∈ knownDates sql crashes, sql.day other < sql.day date + days

instance (date : Text) : Decidable (InWindow sql crashes days date) := inferInstanceAs (Decidable (_ ∧ _))

/-- The days with crashes in the window, oldest first, each with the number of its crashes. -/
structure Windowed (sql : DateFunction) (crashes : List Crash) (days : Nat) (rows : List (Option Text × Nat)) : Prop where
  ascending : rows.Pairwise fun first second =>
    ∃ early late, first.1 = some early ∧ second.1 = some late ∧ sql.day early < sql.day late
  exact : ∀ row, row ∈ rows ↔
    ∃ date, InWindow sql crashes days date ∧ row = (some date, (crashes.filter fun crash => sql.date crash.ts = some date).length)

/-- Every crash has a date, in the window. -/
def AllInside (sql : DateFunction) (crashes : List Crash) (days : Nat) : Prop :=
  none ∉ dates sql crashes ∧ ∀ date ∈ knownDates sql crashes, InWindow sql crashes days date

instance : Decidable (AllInside sql crashes days) := inferInstanceAs (Decidable (_ ∧ _))

/-- Each of the days of the window has a crash. -/
def EachDay (sql : DateFunction) (crashes : List Crash) (days : Nat) : Prop :=
  ∃ newest ∈ knownDates sql crashes, (∀ other ∈ knownDates sql crashes, sql.day other ≤ sql.day newest) ∧
    ∀ back < days, ∃ date ∈ knownDates sql crashes, sql.day date = sql.day newest - back

theorem mem_knownDates {date : Text} : date ∈ knownDates sql crashes ↔ some date ∈ dates sql crashes := by
  rw [knownDates, List.mem_filterMap]
  constructor
  · rintro ⟨found, member, rfl⟩
    exact member
  · intro member
    exact ⟨some date, member, rfl⟩

/-- Later in the calendar is later in the order of the texts. -/
theorem day_le {early late : Text} (one : early ∈ knownDates sql crashes) (other : late ∈ knownDates sql crashes) :
    early ≤ late ↔ sql.day early ≤ sql.day late := by
  obtain ⟨first, _, dated⟩ := List.mem_map.mp (mem_knownDates.mp one)
  obtain ⟨second, _, also⟩ := List.mem_map.mp (mem_knownDates.mp other)
  rw [← not_lt, ← before_iff, sql.ordered also dated, Int.not_lt]

theorem day_injective {early late : Text} (one : early ∈ knownDates sql crashes) (other : late ∈ knownDates sql crashes)
    (same : sql.day early = sql.day late) : early = late :=
  le_antisymm ((day_le one other).mpr (Int.le_of_eq same)) ((day_le other one).mpr (Int.le_of_eq same.symm))

/-- The selection of the window, on the groups. -/
def inWindow (sql : DateFunction) (crashes : List Crash) (days : Nat) : Option Text → Bool
  | some date => decide (InWindow sql crashes days date)
  | none => false

theorem inWindow_iff {date : Option Text} :
    inWindow sql crashes days date = true ↔ ∃ text, date = some text ∧ InWindow sql crashes days text := by
  cases date with
  | none => simp [inWindow]
  | some text => simp [inWindow]

theorem inWindow_upper (sql : DateFunction) (crashes : List Crash) (days : Nat) :
    (newestFirst sql crashes).Pairwise fun first second =>
      inWindow sql crashes days second = true → inWindow sql crashes days first = true := by
  refine (newestFirst_sorted sql crashes).imp_of_mem fun {first second} one other sorted chosen => ?_
  obtain ⟨late, rfl, inside⟩ := inWindow_iff.mp chosen
  cases first with
  | none => cases sorted
  | some early =>
    have known : early ∈ knownDates sql crashes := mem_knownDates.mpr (mem_newestFirst.mp one)
    have later := (day_le inside.1 known).mp ((noEarlier_some early late).mp sorted)
    refine inWindow_iff.mpr ⟨early, rfl, known, fun another member => ?_⟩
    have bound := inside.2 another member
    omega

theorem exists_newest {date : Text} (known : date ∈ knownDates sql crashes) :
    ∃ newest ∈ knownDates sql crashes, ∀ other ∈ knownDates sql crashes, sql.day other ≤ sql.day newest := by
  cases found : (knownDates sql crashes).argmax sql.day with
  | none =>
    rw [List.argmax_eq_none.mp found] at known
    cases known
  | some newest => exact ⟨newest, List.argmax_mem found, fun other member => List.le_of_mem_argmax member found⟩

/-- The days of the window with crashes, on the calendar. -/
def windowDays (sql : DateFunction) (crashes : List Crash) (days : Nat) : List Int :=
  ((newestFirst sql crashes).filter (inWindow sql crashes days)).map fun date => (date.map sql.day).getD 0

theorem mem_windowDays {day : Int} :
    day ∈ windowDays sql crashes days ↔ ∃ date, InWindow sql crashes days date ∧ sql.day date = day := by
  rw [windowDays, List.mem_map]
  constructor
  · rintro ⟨found, member, rfl⟩
    obtain ⟨date, rfl, inside⟩ := inWindow_iff.mp (List.mem_filter.mp member).2
    exact ⟨date, inside, rfl⟩
  · rintro ⟨date, inside, rfl⟩
    refine ⟨some date, List.mem_filter.mpr ⟨mem_newestFirst.mpr (mem_knownDates.mp inside.1), inWindow_iff.mpr ⟨date, rfl, inside⟩⟩, rfl⟩

theorem windowDays_nodup (sql : DateFunction) (crashes : List Crash) (days : Nat) : (windowDays sql crashes days).Nodup := by
  refine List.Nodup.map_on ?_ ((newestFirst_nodup sql crashes).filter _)
  intro first one second other same
  obtain ⟨early, rfl, inside⟩ := inWindow_iff.mp (List.mem_filter.mp one).2
  obtain ⟨late, rfl, within⟩ := inWindow_iff.mp (List.mem_filter.mp other).2
  exact congrArg some (day_injective inside.1 within.1 same)

/-- So many days, back from the newest. -/
def daysBack (newest : Int) (days : Nat) : List Int := (List.range days).map fun back : Nat => newest - back

theorem length_daysBack (newest : Int) (days : Nat) : (daysBack newest days).length = days := by
  rw [daysBack, List.length_map, List.length_range]

theorem daysBack_nodup (newest : Int) (days : Nat) : (daysBack newest days).Nodup := by
  apply List.Nodup.map_on _ List.nodup_range
  intro first _ second _ same
  omega

theorem windowDays_subset {newest : Text} (member : newest ∈ knownDates sql crashes)
    (latest : ∀ other ∈ knownDates sql crashes, sql.day other ≤ sql.day newest) :
    List.Subperm (windowDays sql crashes days) (daysBack (sql.day newest) days) := by
  apply List.subperm_of_subset (windowDays_nodup sql crashes days)
  intro day chosen
  obtain ⟨date, window, rfl⟩ := mem_windowDays.mp chosen
  have before := latest date window.1
  have after := window.2 newest member
  exact List.mem_map.mpr ⟨(sql.day newest - sql.day date).toNat, List.mem_range.mpr (by omega), by omega⟩

/-- The window is no longer than its limit. -/
theorem windowDays_bound (sql : DateFunction) (crashes : List Crash) (days : Nat) : (windowDays sql crashes days).length ≤ days := by
  by_cases any : ∃ date, date ∈ knownDates sql crashes
  · obtain ⟨date, known⟩ := any
    obtain ⟨newest, member, latest⟩ := exists_newest known
    have bound := (@windowDays_subset sql crashes days newest member latest).length_le
    rwa [length_daysBack] at bound
  · have empty : windowDays sql crashes days = [] := by
      apply List.eq_nil_iff_forall_not_mem.mpr
      intro day chosen
      obtain ⟨date, window, _⟩ := mem_windowDays.mp chosen
      exact any ⟨date, window.1⟩
    rw [empty]
    exact Nat.zero_le days

/-- The window is used up where each of its days has a crash. -/
theorem windowDays_full (positive : 1 ≤ days) : (windowDays sql crashes days).length = days ↔ EachDay sql crashes days := by
  constructor
  · intro full
    obtain ⟨day, chosen⟩ := List.exists_mem_of_length_pos (show 0 < (windowDays sql crashes days).length by omega)
    obtain ⟨date, window, _⟩ := mem_windowDays.mp chosen
    obtain ⟨newest, member, latest⟩ := exists_newest window.1
    refine ⟨newest, member, latest, fun back less => ?_⟩
    -- As many different days as the window has room for are all of its days.
    have all := (@windowDays_subset sql crashes days newest member latest).perm_of_length_le (by rw [length_daysBack, full])
    obtain ⟨found, within, same⟩ := mem_windowDays.mp (all.mem_iff.mpr (List.mem_map.mpr ⟨back, List.mem_range.mpr less, rfl⟩))
    exact ⟨found, within.1, same⟩
  · rintro ⟨newest, member, latest, each⟩
    have covered : daysBack (sql.day newest) days ⊆ windowDays sql crashes days := by
      intro day chosen
      obtain ⟨back, less, rfl⟩ := List.mem_map.mp chosen
      obtain ⟨date, known, same⟩ := each back (List.mem_range.mp less)
      refine mem_windowDays.mpr ⟨date, ⟨known, fun other another => ?_⟩, same⟩
      have before := latest other another
      have near := List.mem_range.mp less
      omega
    have bound := (List.subperm_of_subset (daysBack_nodup (sql.day newest) days) covered).length_le
    rw [length_daysBack] at bound
    exact Nat.le_antisymm (windowDays_bound sql crashes days) bound

theorem all_chosen_iff : (∀ date ∈ newestFirst sql crashes, inWindow sql crashes days date = true) ↔ AllInside sql crashes days := by
  simp only [mem_newestFirst]
  constructor
  · intro all
    have dated : none ∉ dates sql crashes := fun null => absurd (all none null) Bool.false_ne_true
    refine ⟨dated, fun date known => ?_⟩
    obtain ⟨text, same, inside⟩ := inWindow_iff.mp (all (some date) (mem_knownDates.mp known))
    cases same
    exact inside
  · rintro ⟨dated, all⟩ date member
    cases date with
    | none => exact absurd member dated
    | some text => exact inWindow_iff.mpr ⟨text, rfl, all text (mem_knownDates.mpr member)⟩

theorem dailyRow_some (sql : DateFunction) (crashes : List Crash) (date : Text) :
    dailyRow sql crashes (some date) = (some date, (crashes.filter fun crash => sql.date crash.ts = some date).length) := by
  have same : (dates sql crashes).count (some date) = (crashes.filter fun crash => sql.date crash.ts = some date).length := by
    rw [dates, List.count_eq_countP, List.countP_map, List.countP_eq_length_filter]
    simp only [Function.comp_def, beq_eq_decide]
  rw [dailyRow, same]

theorem dailyRow_inj {first second : Option Text} (same : dailyRow sql crashes first = dailyRow sql crashes second) : first = second :=
  (Prod.mk.inj same).1

theorem mem_rows {row : Option Text × Nat} :
    row ∈ (((newestFirst sql crashes).take days).map (dailyRow sql crashes)).reverse ↔
      ∃ date ∈ (newestFirst sql crashes).take days, dailyRow sql crashes date = row := by
  rw [List.mem_reverse, List.mem_map]

theorem newestFirst_strict (sql : DateFunction) (crashes : List Crash) :
    (newestFirst sql crashes).Pairwise fun first second =>
      first ≠ second ∧ noEarlier first second = true ∧ first ∈ dates sql crashes ∧ second ∈ dates sql crashes := by
  have both := (newestFirst_nodup sql crashes).and (newestFirst_sorted sql crashes)
  refine both.imp_of_mem fun one other sorted => ?_
  exact ⟨sorted.1, sorted.2, mem_newestFirst.mp one, mem_newestFirst.mp other⟩

/-- The selected groups are the rows of the window if they are its dates. -/
theorem windowed_iff (sql : DateFunction) (crashes : List Crash) (days : Nat) :
    Windowed sql crashes days (((newestFirst sql crashes).take days).map (dailyRow sql crashes)).reverse ↔
      ∀ date, date ∈ (newestFirst sql crashes).take days ↔ date ∈ newestFirst sql crashes ∧ inWindow sql crashes days date = true := by
  constructor
  · intro windowed date
    constructor
    · intro taken
      obtain ⟨text, inside, same⟩ := (windowed.exact _).mp (mem_rows.mpr ⟨date, taken, rfl⟩)
      have dated : date = some text := (Prod.mk.inj same).1
      exact ⟨List.mem_of_mem_take taken, inWindow_iff.mpr ⟨text, dated, inside⟩⟩
    · rintro ⟨_, chosen⟩
      obtain ⟨text, rfl, inside⟩ := inWindow_iff.mp chosen
      obtain ⟨found, taken, same⟩ := mem_rows.mp ((windowed.exact _).mpr ⟨text, inside, rfl⟩)
      rw [← dailyRow_some] at same
      exact dailyRow_inj same ▸ taken
  · intro selected
    constructor
    · rw [List.pairwise_reverse, List.pairwise_map]
      refine ((newestFirst_strict sql crashes).sublist (List.take_sublist _ _)).imp_of_mem fun {first second} one other sorted => ?_
      obtain ⟨late, rfl, after⟩ := inWindow_iff.mp ((selected first).mp one).2
      obtain ⟨early, rfl, inside⟩ := inWindow_iff.mp ((selected second).mp other).2
      obtain ⟨different, order, _⟩ := sorted
      have before := (day_le inside.1 after.1).mp ((noEarlier_some late early).mp order)
      have apart : sql.day early ≠ sql.day late := fun same => different (congrArg some (day_injective inside.1 after.1 same).symm)
      exact ⟨early, late, rfl, rfl, by omega⟩
    · intro row
      rw [mem_rows]
      constructor
      · rintro ⟨date, taken, rfl⟩
        obtain ⟨text, rfl, inside⟩ := inWindow_iff.mp ((selected date).mp taken).2
        exact ⟨text, inside, dailyRow_some sql crashes text⟩
      · rintro ⟨text, inside, rfl⟩
        have found : some text ∈ newestFirst sql crashes := mem_newestFirst.mpr (mem_knownDates.mp inside.1)
        exact ⟨some text, (selected _).mpr ⟨found, inWindow_iff.mpr ⟨text, rfl, inside⟩⟩, dailyRow_some sql crashes text⟩

end Windows

/-- The trend shows the days of the calendar window exactly when no crash lies outside it, or none of its days is without one. -/
theorem daily_counts_windowed_iff (sql : DateFunction) (crashes : List Crash) (days : Nat) (positive : 1 ≤ days) :
    (∃ rows, dailyCounts sql crashes days = .ok rows ∧ Windowed sql crashes days rows) ↔
      days < 2 ^ 63 ∧ (AllInside sql crashes days ∨ EachDay sql crashes days) := by
  have length : ((newestFirst sql crashes).filter (inWindow sql crashes days)).length = (windowDays sql crashes days).length :=
    (List.length_map _).symm
  have selected := take_chosen_iff (inWindow_upper sql crashes days) (length ▸ windowDays_bound sql crashes days)
  rw [length, windowDays_full positive, all_chosen_iff, ← windowed_iff, or_comm] at selected
  rw [← selected]
  by_cases large : 2 ^ 63 ≤ days
  · rw [dailyCounts, if_pos large]
    constructor
    · rintro ⟨rows, impossible, _⟩
      cases impossible
    · intro small
      omega
  · rw [dailyCounts, if_neg large]
    constructor
    · rintro ⟨rows, same, windowed⟩
      cases same
      exact ⟨Nat.lt_of_not_le large, windowed⟩
    · rintro ⟨_, windowed⟩
      exact ⟨_, rfl, windowed⟩

/-- DATE on two times of March 2026. -/
def marchDates : DateFunction where
  date ts :=
    if ts = "2026-03-01T10:00:00Z".toList then some "2026-03-01".toList
    else if ts = "2026-03-29T10:00:00Z".toList then some "2026-03-29".toList
    else none
  day date := if date = "2026-03-01".toList then 0 else 28
  ordered := by
    intro first second early late one other
    split_ifs at one other <;> cases one <;> cases other <;> decide

def crashAt (id : Nat) (ts : String) : Crash := ⟨id, ts.toList, "svc".toList, "SIGSEGV".toList, 0, "r".toList, [], []⟩

/-- Two crashes with four weeks between them. -/
def marchCrashes : List Crash := [crashAt 1 "2026-03-01T10:00:00Z", crashAt 2 "2026-03-29T10:00:00Z"]

theorem marchCrashes_rows (days : Nat) (small : days < 2 ^ 63) (two : 2 ≤ days) :
    dailyCounts marchDates marchCrashes days = .ok [(some "2026-03-01".toList, 1), (some "2026-03-29".toList, 1)] := by
  have groups : newestFirst marchDates marchCrashes = [some "2026-03-29".toList, some "2026-03-01".toList] := by decide
  rw [dailyCounts, if_neg (Nat.not_le_of_lt small), groups, List.take_of_length_le two]
  decide

/-- In a window of 29 days, both are shown. -/
theorem march_windowed :
    1 ≤ 29 ∧ ∃ rows, dailyCounts marchDates marchCrashes 29 = .ok rows ∧ Windowed marchDates marchCrashes 29 rows :=
  ⟨by decide, (daily_counts_windowed_iff marchDates marchCrashes 29 (by decide)).mpr ⟨by decide, Or.inl (by decide)⟩⟩

/-- The last fourteen days have one crash, but the older one is shown as well. -/
theorem older_day_shown :
    ¬ ∀ (sql : DateFunction) (crashes : List Crash) (days : Nat), 1 ≤ days →
      ∃ rows, dailyCounts sql crashes days = .ok rows ∧ Windowed sql crashes days rows := by
  intro all
  obtain ⟨rows, same, windowed⟩ := all marchDates marchCrashes 14 (by decide)
  rw [marchCrashes_rows 14 (by decide) (by decide)] at same
  cases same
  obtain ⟨date, inside, row⟩ := (windowed.exact (some "2026-03-01".toList, 1)).mp List.mem_cons_self
  cases row
  have outside : ¬ InWindow marchDates marchCrashes 14 "2026-03-01".toList := by decide
  exact outside inside

end Crashomon.Proofs.DailyCounts
