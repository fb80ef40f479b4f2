import Crashomon.Proofs.CrashHistory
import Mathlib.Algebra.BigOperators.Group.List.Lemmas

/-! The lists of the crash history: the pages that the next links lead through, and the groups and counts of the
dashboard over any requests. -/

namespace Crashomon.Proofs.CrashLists
open Python Web.Models Web.CrashUpload Web.CrashPages CrashHistory Tools.Analyze

section Numbers

theorem digitValue_digitChar {digit : Nat} (small : digit < 10) :
    digitValue (Nat.digitChar digit) = (Nat.digitChar digit).toNat - '0'.toNat ∧ digitValue (Nat.digitChar digit) < 10 ∧
      Nat.digitChar digit ≠ '_' ∧ Nat.digitChar digit ≠ '-' ∧ Nat.digitChar digit ≠ '+' ∧ isBlank (Nat.digitChar digit) = false ∧
      (PyChar.scalar (Nat.digitChar digit)).toAscii = Nat.digitChar digit := by
  have each : ∀ digit : Fin 10, digitValue (Nat.digitChar digit) = (Nat.digitChar digit).toNat - '0'.toNat ∧
      digitValue (Nat.digitChar digit) < 10 ∧ Nat.digitChar digit ≠ '_' ∧ Nat.digitChar digit ≠ '-' ∧ Nat.digitChar digit ≠ '+' ∧
      isBlank (Nat.digitChar digit) = false ∧ (PyChar.scalar (Nat.digitChar digit)).toAscii = Nat.digitChar digit := by
    decide
  exact each ⟨digit, small⟩

/-- Where the blanks around a text are none. -/
theorem strip_solid {text : Text} (solid : ∀ character ∈ text, isBlank character = false) :
    ((text.dropWhile isBlank).reverse.dropWhile isBlank).reverse = text := by
  have kept {part : Text} (within : ∀ character ∈ part, isBlank character = false) : part.dropWhile isBlank = part := by
    cases part with
    | nil => rfl
    | cons first rest => exact List.dropWhile_cons_of_neg (by simp [within first List.mem_cons_self])
  rw [kept solid, kept fun character member => solid character (List.mem_reverse.mp member), List.reverse_reverse]

theorem natOfText_toDigits {value : Nat} (short : (Nat.toDigits 10 value).length ≤ maxStrDigits) :
    natOfText 10 (Nat.toDigits 10 value) = some value := by
  have each {holds : Char → Prop} (digits : ∀ digit < 10, holds (Nat.digitChar digit)) := forall_mem_toDigits (by decide) digits value
  have whole : (Nat.toDigits 10 value).splitOn '_' = [Nat.toDigits 10 value] := by
    apply List.splitOnP_eq_singleton
    exact each fun digit small => beq_false_of_ne (digitValue_digitChar small).2.2.1
  have valued : natOfDigits 10 (Nat.toDigits 10 value) = Nat.ofDigitChars 10 (Nat.toDigits 10 value) 0 := by
    rw [natOfDigits, Nat.ofDigitChars_eq_foldl]
    apply List.foldl_ext
    intro sum digit member
    have read : ∀ digit ∈ Nat.toDigits 10 value, digitValue digit = digit.toNat - '0'.toNat :=
      each fun digit small => (digitValue_digitChar small).1
    rw [read digit member, Nat.mul_comm]
  have numeral : (Nat.toDigits 10 value).all (fun digit => digitValue digit < 10) = true :=
    List.all_eq_true.mpr (each fun digit small => decide_eq_true (digitValue_digitChar small).2.1)
  have present : (Nat.toDigits 10 value).isEmpty = false := List.isEmpty_eq_false_iff.mpr Nat.toDigits_ne_nil
  rw [natOfText, whole]
  simp [numeral, present, Nat.not_lt.mpr short, valued]

theorem intOfText_toDigits {value : Nat} (short : (Nat.toDigits 10 value).length ≤ maxStrDigits) :
    intOfText 10 (pyStr (Nat.toDigits 10 value)) = some (value : Int) := by
  have each {holds : Char → Prop} (digits : ∀ digit < 10, holds (Nat.digitChar digit)) := forall_mem_toDigits (by decide) digits value
  have folded : (pyStr (Nat.toDigits 10 value)).map PyChar.toAscii = Nat.toDigits 10 value := by
    have same : ∀ digit ∈ Nat.toDigits 10 value, (PyChar.scalar digit).toAscii = digit :=
      each fun digit small => (digitValue_digitChar small).2.2.2.2.2.2
    rw [pyStr, List.map_map]
    exact (List.map_congr_left same).trans (List.map_id _)
  have solid := strip_solid (each fun digit small => (digitValue_digitChar small).2.2.2.2.2.1)
  have unsigned : ∀ digit ∈ Nat.toDigits 10 value, digit ≠ '-' ∧ digit ≠ '+' :=
    each fun digit small => ⟨(digitValue_digitChar small).2.2.2.1, (digitValue_digitChar small).2.2.2.2.1⟩
  have read := natOfText_toDigits short
  rw [intOfText, folded, solid]
  dsimp only
  obtain ⟨digit, others, split⟩ := List.exists_cons_of_ne_nil (Nat.toDigits_ne_nil (n := value) (b := 10))
  rw [split] at unsigned read ⊢
  obtain ⟨minus, plus⟩ := unsigned digit List.mem_cons_self
  split
  next same => exact absurd (List.cons.inj same).1 minus
  next same => exact absurd (List.cons.inj same).1 plus
  next => simp [read]

theorem pageNumber_toDigits {page : Nat} (positive : 1 ≤ page) (small : page ≤ maxInteger) :
    pageNumber (some (Nat.toDigits 10 page)) = page := by
  have short : (Nat.toDigits 10 page).length ≤ maxStrDigits := by
    have few : (Nat.toDigits 10 page).length ≤ 19 := by
      rw [Nat.length_toDigits_le_iff (by decide) (by decide)]
      exact Nat.lt_of_le_of_lt small (by decide)
    exact Nat.le_trans few (by decide)
  rw [pageNumber, intOfText_toDigits short, Option.map_some, Option.getD_some]
  omega

end Numbers

section Links

variable {site : Site} {database : Database} {process signal : Text}

/-- The crashes that the filters select. -/
def selected (database : Database) (process signal : Text) : List Crash :=
  database.rows.filter fun crash => Selected process signal crash

/-- The timestamps of a page's rows are the same in every order that the clause allows. -/
theorem times_unique (sql other : Sql) (crashes : List Crash) (process signal : Text) :
    (selection sql crashes process signal).map (·.ts) = (selection other crashes process signal).map (·.ts) := by
  have sorted (choice : Sql) : ((selection choice crashes process signal).map (·.ts)).Pairwise fun first second => second ≤ first := by
    refine List.pairwise_map.mpr ((choice.newest.sorted _).imp fun {first second} late => ?_)
    rw [← Bool.not_eq_true, DailyCounts.before_iff, not_lt] at late
    exact late
  refine List.Perm.eq_of_pairwise (fun _ _ _ _ one other => le_antisymm other one) (sorted sql) (sorted other) ?_
  exact ((sql.newest.perm _).trans (other.newest.perm _).symm).map _

theorem length_selection (sql : Sql) (database : Database) (process signal : Text) :
    (selection sql database.rows process signal).length = (selected database process signal).length := (sql.newest.perm _).length_eq

/-- The link to the next page, which keeps the filters; on every page SQLite chooses anew. -/
def nextLink (sql : Nat → Sql) (process signal : Text) : Response → Option Request
  | .list _ page true => some (.crashes (sql (page + 1)) (some process) (some signal) (some (Nat.toDigits 10 (page + 1))))
  | _ => none

theorem nextLink_last (sql : Nat → Sql) (process signal : Text) (crashes : List Summary) (page : Nat) :
    nextLink sql process signal (.list crashes page false) = none := rfl

/-- The answers from a request on, each behind the link of the one before; nothing where the fuel ends before the links. -/
def browse (site : Site) (sql : Nat → Sql) (database : Database) (process signal : Text) : Nat → Request → Option (List Response)
  | 0, _ => none
  | fuel + 1, request =>
    let response := (handle site database request).1
    match nextLink sql process signal response with
    | none => some [response]
    | some next => (browse site sql database process signal fuel next).map (response :: ·)

def listed : Response → List Summary
  | .list crashes _ _ => crashes
  | _ => []

/-- What a page of the list shows. -/
def pageShown (sql : Nat → Sql) (database : Database) (process signal : Text) (number : Nat) : Response :=
  .list ((Pages.page (selection (sql number) database.rows process signal) perPage number).map Summary.of) number
    (Pages.hasNext (selected database process signal) perPage number)

/-- The answer to a page of the list, where its offset is a SQLite integer. -/
theorem crashes_eq (site : Site) (sql : Nat → Sql) (database : Database) (process signal : Text) {name kind argument : Option Text}
    {page : Nat} (same : name.getD [] = process) (alike : kind.getD [] = signal)
    (numbered : pageNumber argument = page) (room : (page - 1) * perPage ≤ maxInteger) :
    (handle site database (.crashes (sql page) name kind argument)).1 = pageShown sql database process signal page := by
  have small : ¬ (maxInteger < perPage + 1 ∨ maxInteger < (page - 1) * perPage) := by
    rintro (large | large)
    · exact absurd large (by decide)
    · exact Nat.not_le_of_lt large room
  have further : Pages.hasNext (selected database process signal) perPage page =
      Pages.hasNext (selection (sql page) database.rows process signal) perPage page :=
    Pages.hasNext_congr (length_selection (sql page) database process signal).symm perPage page
  rw [handle, crashesPage, same, alike, numbered, getCrashes, if_neg small, pageShown, further]
  simp only [bind, Except.bind, Response.of]
  rw [Pages.page, Pages.hasNext, List.map_take, List.length_map]

/-- From any page that is there, the links lead through the rest, one page after the other. -/
theorem browse_eq (sql : Nat → Sql) (room : database.rows.length ≤ maxInteger) (fuel page : Nat) (request : Request) (positive : 1 ≤ page)
    (enough : Pages.last (selected database process signal) perPage < page + fuel)
    (within : page ≤ Pages.last (selected database process signal) perPage)
    (answers : (handle site database request).1 = pageShown sql database process signal page) :
    browse site sql database process signal fuel request =
      some ((List.range' page (Pages.last (selected database process signal) perPage + 1 - page)).map
        (pageShown sql database process signal)) := by
  induction fuel generalizing page request with
  | zero => omega
  | succ fuel ih =>
    rw [browse, answers]
    cases further : Pages.hasNext (selected database process signal) perPage page with
    | false =>
      have last : page = Pages.last (selected database process signal) perPage := by
        have none := mt (Pages.hasNext_iff_lt_last (by decide) positive).mpr (Bool.eq_false_iff.mp further)
        omega
      have ends : nextLink sql process signal (pageShown sql database process signal page) = none := by
        rw [pageShown, further]
        exact nextLink_last sql process signal _ page
      rw [ends, ← last, Nat.add_sub_cancel_left, List.range'_one]
      rfl
    | true =>
      have less := (Pages.hasNext_iff_lt_last (by decide) positive).mp further
      have offset : (page + 1 - 1) * perPage ≤ maxInteger := by
        have more := (Pages.hasNext_iff positive).mp further
        have most : (selected database process signal).length ≤ database.rows.length := List.length_filter_le _ _
        rw [Nat.add_sub_cancel]
        omega
      have small : page + 1 ≤ maxInteger := by
        rw [Nat.add_sub_cancel] at offset
        have double : page * 2 ≤ page * perPage := Nat.mul_le_mul_left page (by decide)
        omega
      have next := crashes_eq site sql database process signal (rfl : (some process).getD [] = process)
        (rfl : (some signal).getD [] = signal) (pageNumber_toDigits (Nat.le_add_left 1 page) small) offset
      have rest : Pages.last (selected database process signal) perPage + 1 - page =
          Pages.last (selected database process signal) perPage + 1 - (page + 1) + 1 := by omega
      have links : nextLink sql process signal (pageShown sql database process signal page) =
          some (.crashes (sql (page + 1)) (some process) (some signal) (some (Nat.toDigits 10 (page + 1)))) := by
        rw [pageShown, further]
        rfl
      rw [links]
      dsimp only
      rw [ih (page + 1) _ (Nat.le_add_left 1 page) (by omega) less next, rest, List.range'_succ, List.map_cons, Option.map_some]

/-- What the pages show of the crashes that the filters select, whatever SQLite chooses on each of them. -/
structure Covers (crashes : List Crash) (pages : List Response) : Prop where
  small : ∀ page ∈ pages, (listed page).length ≤ perPage
  /-- Each row is that of a crash. -/
  shown : ∀ row ∈ pages.flatMap listed, ∃ crash ∈ crashes, row = Summary.of crash
  sorted : (pages.flatMap listed).Pairwise fun first second => before first.ts second.ts = false
  /-- As many rows of each time as there are crashes. -/
  times : ((pages.flatMap listed).map (·.ts)).Perm (crashes.map (·.ts))
  /-- A crash that has its time for itself is shown once. -/
  once : ∀ crash ∈ crashes, crashes.countP (fun other => other.ts = crash.ts) = 1 → (pages.flatMap listed).count (Summary.of crash) = 1

/-- The rows of all pages have the times of the crashes, in their order. -/
theorem times_of_pages (sql : Nat → Sql) (database : Database) (process signal : Text) :
    (((List.range' 1 (Pages.last (selected database process signal) perPage)).map
      (pageShown sql database process signal)).flatMap listed).map (·.ts) = (selection (sql 0) database.rows process signal).map (·.ts) := by
  have full : 1 ≤ perPage := by decide
  have whole := Pages.flatMap_page_last ((selection (sql 0) database.rows process signal).map (·.ts)) full
  have each (number : Nat) : (listed (pageShown sql database process signal number)).map (·.ts) =
      Pages.page ((selection (sql 0) database.rows process signal).map (·.ts)) perPage number := by
    rw [pageShown, listed, List.map_map, times_unique (sql 0) (sql number), Pages.page_map]
    rfl
  rw [Pages.last_congr (List.length_map _), Pages.last_congr (length_selection (sql 0) database process signal)] at whole
  refine Eq.trans ?_ whole
  rw [List.range'_eq_map_range, List.map_map, List.flatMap_map, List.map_flatMap]
  simp only [Function.comp_apply, each, Nat.add_comm]

theorem covers_pages (sql : Nat → Sql) (database : Database) (process signal : Text) :
    Covers (selected database process signal) ((List.range' 1 (Pages.last (selected database process signal) perPage)).map
      (pageShown sql database process signal)) := by
  have times := times_of_pages sql database process signal
  have small : ∀ page ∈ (List.range' 1 (Pages.last (selected database process signal) perPage)).map
      (pageShown sql database process signal), (listed page).length ≤ perPage := by
    intro page member
    obtain ⟨number, _, rfl⟩ := List.mem_map.mp member
    rw [pageShown, listed, List.length_map, Pages.page]
    exact List.length_take_le _ _
  have shown : ∀ row ∈ ((List.range' 1 (Pages.last (selected database process signal) perPage)).map
      (pageShown sql database process signal)).flatMap listed, ∃ crash ∈ selected database process signal, row = Summary.of crash := by
    intro row member
    obtain ⟨page, among, inside⟩ := List.mem_flatMap.mp member
    obtain ⟨number, _, rfl⟩ := List.mem_map.mp among
    obtain ⟨crash, there, rfl⟩ := List.mem_map.mp inside
    rw [Pages.page_eq] at there
    exact ⟨crash, ((sql number).newest.perm _).mem_iff.mp (List.mem_of_mem_drop (List.mem_of_mem_take there)), rfl⟩
  generalize ((List.range' 1 (Pages.last (selected database process signal) perPage)).map
    (pageShown sql database process signal)) = pages at times small shown
  have perm : ((pages.flatMap listed).map (·.ts)).Perm ((selected database process signal).map (·.ts)) := by
    rw [times]
    exact ((sql 0).newest.perm _).map _
  refine ⟨small, shown, ?sorted, perm, ?once⟩
  case sorted =>
    have ordered : ((selection (sql 0) database.rows process signal).map (·.ts)).Pairwise fun first second => before first second = false :=
      List.pairwise_map.mpr ((sql 0).newest.sorted _)
    rw [← times] at ordered
    exact List.pairwise_map.mp ordered
  case once =>
    intro crash member alone
    -- One row has the time of the crash, and the row is that of a crash with this time: there is only one.
    have one : (pages.flatMap listed).countP (fun row => row.ts = crash.ts) = 1 := by
      have counts := perm.countP_eq fun time => time = crash.ts
      rw [List.countP_map, List.countP_map] at counts
      exact counts.trans alone
    rw [← one, List.count_eq_countP]
    apply List.countP_congr
    intro row among
    obtain ⟨other, there, rfl⟩ := shown row among
    rw [beq_iff_eq, decide_eq_true_iff]
    constructor
    · exact fun same => congrArg Summary.ts same
    · intro same
      have only := List.length_eq_one_iff.mp ((List.countP_eq_length_filter (p := fun other : Crash => decide (other.ts = crash.ts))).symm.trans alone)
      obtain ⟨single, listed⟩ := only
      have first : other ∈ [single] := listed ▸ List.mem_filter.mpr ⟨there, decide_eq_true same⟩
      have second : crash ∈ [single] := listed ▸ List.mem_filter.mpr ⟨member, decide_eq_true rfl⟩
      rw [List.mem_singleton.mp first, List.mem_singleton.mp second]

/-- The next links from the first page on end, and their pages show the selected crashes, the newest first. -/
theorem links_show_all (site : Site) (sql : Nat → Sql) (database : Database) (room : database.rows.length ≤ maxInteger)
    (process signal : Option Text) :
    ∃ pages, browse site sql database (process.getD []) (signal.getD []) (database.rows.length / perPage + 1)
        (.crashes (sql 1) process signal none) = some pages ∧
      Covers (selected database (process.getD []) (signal.getD [])) pages := by
  have last : Pages.last (selected database (process.getD []) (signal.getD [])) perPage ≤ database.rows.length / perPage + 1 :=
    Nat.succ_le_succ (Nat.div_le_div_right (Nat.le_trans (Nat.sub_le _ 1) (List.length_filter_le _ _)))
  have answer := crashes_eq site sql database (process.getD []) (signal.getD []) rfl rfl (rfl : pageNumber none = 1) (Nat.zero_le maxInteger)
  exact ⟨_, browse_eq sql room _ 1 _ (Nat.le_refl 1) (by omega) (Nat.le_add_left 1 _) answer, covers_pages sql database _ _⟩

/-- A row without a report, with a time of its own. -/
def plainCrash (crashId : Nat) : Crash := ⟨crashId, List.replicate crashId '0', [], [], 0, [], [], []⟩

/-- One more than a page shows. -/
def twoPages : Database := ⟨(List.range 26).map fun earlier => plainCrash (earlier + 1), 26⟩

theorem two_pages_show_all :
    ∃ pages, browse CrashUploads.plainSite (fun _ => plainSql) twoPages [] [] (twoPages.rows.length / perPage + 1)
        (.crashes plainSql none none none) = some pages ∧
      Covers (selected twoPages [] []) pages :=
  links_show_all CrashUploads.plainSite (fun _ => plainSql) twoPages (by decide) none none

end Links

section Choosing

variable {Row Key : Type} {key : Row → Key} {choose : Key → Key → Key} {first : Row} {rest : List Row}

/-- What is chosen along a list is the key of a row. -/
theorem foldl_mem (either : ∀ one other, choose one other = one ∨ choose one other = other) :
    ∃ row ∈ first :: rest, key row = rest.foldl (fun seen row => choose seen (key row)) (key first) := by
  suffices any : ∀ seen, rest.foldl (fun seen row => choose seen (key row)) seen = seen ∨
      ∃ row ∈ rest, key row = rest.foldl (fun seen row => choose seen (key row)) seen by
    obtain start | ⟨row, member, same⟩ := any (key first)
    · exact ⟨first, List.mem_cons_self, start.symm⟩
    · exact ⟨row, List.mem_cons_of_mem _ member, same⟩
  induction rest with
  | nil => exact fun seen => Or.inl rfl
  | cons next rest ih =>
    intro seen
    rw [List.foldl_cons]
    obtain same | ⟨row, member, same⟩ := ih (choose seen (key next))
    · rw [same]
      obtain left | right := either seen (key next)
      · exact Or.inl left
      · exact Or.inr ⟨next, List.mem_cons_self, right.symm⟩
    · exact Or.inr ⟨row, List.mem_cons_of_mem _ member, same⟩

/-- No key is on the far side of what is chosen. -/
theorem foldl_bound (key : Row → Key) (Within : Key → Key → Prop) (same : ∀ one, Within one one)
    (trans : ∀ one other third, Within one other → Within other third → Within one third)
    (left : ∀ one other, Within (choose one other) one) (right : ∀ one other, Within (choose one other) other) :
    ∀ row ∈ first :: rest, Within (rest.foldl (fun seen row => choose seen (key row)) (key first)) (key row) := by
  suffices any : ∀ seen, Within (rest.foldl (fun seen row => choose seen (key row)) seen) seen ∧
      ∀ row ∈ rest, Within (rest.foldl (fun seen row => choose seen (key row)) seen) (key row) by
    intro row member
    obtain rfl | later := List.mem_cons.mp member
    · exact (any _).1
    · exact (any _).2 row later
  induction rest with
  | nil => exact fun seen => ⟨same seen, by simp⟩
  | cons next rest ih =>
    intro seen
    obtain ⟨begun, further⟩ := ih (choose seen (key next))
    refine ⟨trans _ _ _ begun (left seen (key next)), ?_⟩
    intro row member
    obtain rfl | later := List.mem_cons.mp member
    · exact trans _ _ _ begun (right seen (key row))
    · exact further row later

end Choosing

section Tallies

variable {database : Database}

theorem nodup_eraseDups {Value : Type} [BEq Value] [LawfulBEq Value] : ∀ values : List Value, values.eraseDups.Nodup
  | [] => by simp
  | first :: rest => by
    rw [List.eraseDups_cons, List.nodup_cons]
    refine ⟨?_, nodup_eraseDups _⟩
    simp [List.mem_eraseDups]
  termination_by values => values.length
  decreasing_by exact Nat.lt_succ_of_le (List.length_filter_le _ _)

/-- What the dashboard says about a group, against the rows. -/
structure Tallied (database : Database) (group : CrashGroup) : Prop where
  signed : group.signature ≠ []
  counted : group.count = database.rows.countP fun crash => crash.signature = group.signature
  /-- The most recent crash of the group, which its page shows. -/
  sample : ∃ crash ∈ database.rows, crash.id = group.sampleCrashId ∧ crash.signature = group.signature
  newest : ∀ crash ∈ database.rows, crash.signature = group.signature → crash.id ≤ group.sampleCrashId
  firstSeen : ∃ crash ∈ database.rows, crash.ts = group.firstSeen ∧ crash.signature = group.signature
  lastSeen : ∃ crash ∈ database.rows, crash.ts = group.lastSeen ∧ crash.signature = group.signature
  between : ∀ crash ∈ database.rows, crash.signature = group.signature →
    before crash.ts group.firstSeen = false ∧ before group.lastSeen crash.ts = false
  /-- Process and signal are those of one crash. -/
  bare : ∃ crash ∈ database.rows, crash.process = group.process ∧ crash.signal = group.signal ∧ crash.signature = group.signature

theorem not_before_trans {first second third : Text} (one : before first second = false) (other : before second third = false) :
    before first third = false := by
  rw [← Bool.not_eq_true, DailyCounts.before_iff, not_lt] at one other ⊢
  exact le_trans other one

theorem not_before_self (text : Text) : before text text = false := by
  rw [← Bool.not_eq_true, DailyCounts.before_iff]
  exact lt_irrefl text

theorem not_before_of_before {first second : Text} (less : before first second = true) : before second first = false := by
  rw [← Bool.not_eq_true, DailyCounts.before_iff]
  exact lt_asymm ((DailyCounts.before_iff ..).mp less)

theorem earlier_cases (first second : Text) : earlier first second = first ∨ earlier first second = second := by
  unfold earlier
  split
  · exact Or.inr rfl
  · exact Or.inl rfl

theorem later_cases (first second : Text) : later first second = first ∨ later first second = second := by
  unfold later
  split
  · exact Or.inr rfl
  · exact Or.inl rfl

theorem earlier_bound (first second : Text) :
    before first (earlier first second) = false ∧ before second (earlier first second) = false := by
  unfold earlier
  split
  next less => exact ⟨not_before_of_before less, not_before_self second⟩
  next not => exact ⟨not_before_self first, Bool.eq_false_iff.mpr not⟩

theorem later_bound (first second : Text) : before (later first second) first = false ∧ before (later first second) second = false := by
  unfold later
  split
  next less => exact ⟨not_before_of_before less, not_before_self second⟩
  next not => exact ⟨not_before_self first, Bool.eq_false_iff.mpr not⟩

def signedRows (crashes : List Crash) : List Crash := crashes.filter fun crash => crash.signature ≠ []

def signatures (crashes : List Crash) : List Text := ((signedRows crashes).map (·.signature)).eraseDups

theorem mem_signatures {crashes : List Crash} {signature : Text} :
    signature ∈ signatures crashes ↔ signature ≠ [] ∧ ∃ crash ∈ crashes, crash.signature = signature := by
  rw [signatures, List.mem_eraseDups, List.mem_map]
  constructor
  · rintro ⟨crash, member, rfl⟩
    obtain ⟨there, signed⟩ := List.mem_filter.mp member
    exact ⟨of_decide_eq_true signed, crash, there, rfl⟩
  · rintro ⟨signed, crash, there, rfl⟩
    exact ⟨crash, List.mem_filter.mpr ⟨there, decide_eq_true signed⟩, rfl⟩

theorem length_group (crashes : List Crash) {signature : Text} (signed : signature ≠ []) :
    ((signedRows crashes).filter fun crash => crash.signature = signature).length =
      crashes.countP fun crash => crash.signature = signature := by
  rw [signedRows, List.filter_filter, List.countP_eq_length_filter]
  congr 2
  funext crash
  by_cases same : crash.signature = signature
  · simp [same, signed]
  · simp [same]

/-- The row of the group of a signature. -/
theorem group_tallied (sql : Sql) {signature : Text} (member : signature ∈ signatures database.rows) :
    ∃ group, groupRow sql signature ((signedRows database.rows).filter fun crash => crash.signature = signature) = some group ∧
      group.signature = signature ∧ Tallied database group := by
  obtain ⟨signed, crash, there, same⟩ := mem_signatures.mp member
  have inside {row : Crash} : row ∈ (signedRows database.rows).filter (fun crash => crash.signature = signature) ↔
      row ∈ database.rows ∧ row.signature = signature := by
    simp only [signedRows, List.mem_filter, decide_eq_true_eq]
    constructor
    · exact fun ⟨⟨there, _⟩, same⟩ => ⟨there, same⟩
    · exact fun ⟨there, same⟩ => ⟨⟨there, same ▸ signed⟩, same⟩
  have counted := length_group database.rows signed
  cases rows : (signedRows database.rows).filter fun crash => crash.signature = signature with
  | nil => exact absurd (rows ▸ inside.mpr ⟨there, same⟩) List.not_mem_nil
  | cons first rest =>
    rw [rows] at inside counted
    have chosen {Key : Type} {key : Crash → Key} {value : Key} (found : ∃ row ∈ first :: rest, key row = value) :
        ∃ crash ∈ database.rows, key crash = value ∧ crash.signature = signature := by
      obtain ⟨row, member, same⟩ := found
      exact ⟨row, (inside.mp member).1, same, (inside.mp member).2⟩
    refine ⟨_, rfl, rfl, signed, counted, chosen (foldl_mem fun one other => max_choice one other), ?newest,
      chosen (foldl_mem earlier_cases), chosen (foldl_mem later_cases), ?between, ?bare⟩
    case newest =>
      intro crash there same
      exact foldl_bound Crash.id (fun chosen other => other ≤ chosen) Nat.le_refl
        (fun _ _ _ one other => Nat.le_trans other one) Nat.le_max_left Nat.le_max_right crash (inside.mpr ⟨there, same⟩)
    case between =>
      intro crash there same
      have within := inside.mpr ⟨there, same⟩
      constructor
      · exact foldl_bound Crash.ts (fun chosen other => before other chosen = false) not_before_self
          (fun _ _ _ one other => not_before_trans other one) (fun one other => (earlier_bound one other).1)
          (fun one other => (earlier_bound one other).2) crash within
      · exact foldl_bound Crash.ts (fun chosen other => before chosen other = false) not_before_self
          (fun _ _ _ one other => not_before_trans one other) (fun one other => (later_bound one other).1)
          (fun one other => (later_bound one other).2) crash within
    case bare =>
      obtain ⟨there, same⟩ := inside.mp (sql.bare_mem first rest)
      exact ⟨_, there, rfl, rfl, same⟩

/-- The groups of the dashboard, against the rows: each signed row is in exactly one. -/
structure Groups (database : Database) (groups : List CrashGroup) : Prop where
  tallied : ∀ group ∈ groups, Tallied database group
  distinct : (groups.map (·.signature)).Nodup
  complete : ∀ crash ∈ database.rows, crash.signature ≠ [] → ∃ group ∈ groups, group.signature = crash.signature
  total : (groups.map (·.count)).sum = database.rows.countP fun crash => crash.signature ≠ []
  sorted : groups.Pairwise fun first second => second.count ≤ first.count

structure Frequencies (database : Database) (frequency : List (Text × Nat)) : Prop where
  counted : ∀ row ∈ frequency, row.2 = database.rows.countP (fun crash => crash.process = row.1) ∧ 0 < row.2
  distinct : (frequency.map (·.1)).Nodup
  complete : ∀ crash ∈ database.rows, ∃ row ∈ frequency, row.1 = crash.process
  total : (frequency.map (·.2)).sum = database.rows.length
  sorted : frequency.Pairwise fun first second => second.2 ≤ first.2

theorem sum_counts (values : List Text) {keys : List Text} (distinct : keys.Nodup) (same : ∀ key, key ∈ keys ↔ key ∈ values) :
    (keys.map fun key => values.countP fun value => value = key).sum = values.length := by
  have perm : keys.Perm values.dedup := by
    rw [List.perm_ext_iff_of_nodup distinct (List.nodup_dedup values)]
    simp [same]
  have counts : (fun key => values.countP fun value => value = key) = fun key => @List.count _ instBEqOfDecidableEq key values := rfl
  rw [(perm.map _).sum_eq, counts, List.sum_map_count_dedup_eq_length]

/-- The groups in the order of their signatures. -/
def unordered (sql : Sql) (crashes : List Crash) : List CrashGroup :=
  (signatures crashes).filterMap fun signature =>
    groupRow sql signature ((signedRows crashes).filter fun crash => crash.signature = signature)

theorem getCrashGroups_perm (sql : Sql) (database : Database) :
    (getCrashGroups sql database.rows).Perm (unordered sql database.rows) := by
  refine (sql.largest.perm _).trans (List.Perm.of_eq ?_)
  rw [crashGroups, List.filterMap_map]
  apply List.filterMap_congr
  intro signature member
  obtain ⟨group, made, _⟩ := group_tallied sql member
  show (((signedRows database.rows).filter fun crash => crash.signature = signature).head?.map (·.signature)).bind _ = _
  cases rows : (signedRows database.rows).filter fun crash => crash.signature = signature with
  | nil =>
    rw [rows] at made
    cases made
  | cons first rest =>
    have inside : first ∈ (signedRows database.rows).filter fun crash => crash.signature = signature := rows ▸ List.mem_cons_self
    rw [List.head?_cons, Option.map_some, of_decide_eq_true (List.mem_filter.mp inside).2]
    exact congrArg (groupRow sql signature) rows

/-- The columns of a group with an aggregate, which leave SQLite no choice. -/
def aggregates (group : CrashGroup) : Text × Nat × Text × Text × Nat :=
  (group.signature, group.count, group.firstSeen, group.lastSeen, group.sampleCrashId)

theorem aggregates_unordered (sql other : Sql) (crashes : List Crash) :
    (unordered sql crashes).map aggregates = (unordered other crashes).map aggregates := by
  rw [unordered, unordered, List.map_filterMap, List.map_filterMap]
  apply List.filterMap_congr
  intro signature _
  cases (signedRows crashes).filter fun crash => crash.signature = signature with
  | nil => rfl
  | cons first rest => rfl

theorem unordered_tallied (sql : Sql) (database : Database) : ∀ group ∈ unordered sql database.rows, Tallied database group := by
  intro group member
  obtain ⟨signature, listed, made⟩ := List.mem_filterMap.mp member
  obtain ⟨other, same, _, tallied⟩ := group_tallied sql listed
  exact Option.some.inj (same.symm.trans made) ▸ tallied

theorem unordered_signatures (sql : Sql) (database : Database) :
    (unordered sql database.rows).map (·.signature) = signatures database.rows := by
  rw [unordered, List.map_filterMap]
  refine (List.filterMap_congr fun signature member => ?_).trans List.filterMap_some
  obtain ⟨group, made, named, _⟩ := group_tallied sql member
  rw [made, Option.map_some, named]

theorem groups_exact (sql : Sql) (database : Database) : Groups database (getCrashGroups sql database.rows) := by
  have perm := getCrashGroups_perm sql database
  have named : ((getCrashGroups sql database.rows).map (·.signature)).Perm (signatures database.rows) := by
    rw [← unordered_signatures sql database]
    exact perm.map _
  have tallied : ∀ group ∈ getCrashGroups sql database.rows, Tallied database group :=
    fun group member => unordered_tallied sql database group (perm.mem_iff.mp member)
  refine ⟨tallied, ?distinct, ?complete, ?total, sql.largest.sorted _⟩
  case distinct => exact named.nodup_iff.mpr (nodup_eraseDups _)
  case complete =>
    intro crash there signed
    exact List.mem_map.mp (named.mem_iff.mpr (mem_signatures.mpr ⟨signed, crash, there, rfl⟩))
  case total =>
    have counts : (getCrashGroups sql database.rows).map (·.count) =
        ((getCrashGroups sql database.rows).map (·.signature)).map fun signature =>
          ((signedRows database.rows).map (·.signature)).countP fun value => value = signature := by
      rw [List.map_map]
      apply List.map_congr_left
      intro group member
      rw [(tallied group member).counted, ← length_group _ (tallied group member).signed, Function.comp_apply, List.countP_map,
        List.countP_eq_length_filter]
      rfl
    have sum := sum_counts ((signedRows database.rows).map (·.signature)) (nodup_eraseDups _) fun _ => List.mem_eraseDups
    rw [counts, (named.map _).sum_eq, signatures, sum, List.length_map, signedRows,
      List.countP_eq_length_filter]

theorem frequencies_exact (sql : Sql) (database : Database) : Frequencies database (getFrequency sql database.rows) := by
  have counts (process : Text) :
      (database.rows.map (·.process)).count process = database.rows.countP fun crash => crash.process = process := by
    rw [List.count_eq_countP, List.countP_map]
    congr 1
    funext crash
    exact Bool.eq_iff_iff.mpr (by rw [Function.comp_apply, beq_iff_eq, decide_eq_true_iff])
  have perm : (getFrequency sql database.rows).Perm ((database.rows.map (·.process)).dedup.map fun process =>
      (process, database.rows.countP fun crash => crash.process = process)) := by
    refine (sql.frequent.perm _).trans (List.Perm.of_eq (List.map_congr_left fun process _ => ?_))
    rw [counts]
  have named : ((getFrequency sql database.rows).map (·.1)).Perm (database.rows.map (·.process)).dedup := by
    refine (perm.map (·.1)).trans (List.Perm.of_eq ?_)
    rw [List.map_map]
    exact List.map_id _
  refine ⟨?counted, named.nodup_iff.mpr (List.nodup_dedup _), ?complete, ?total, sql.frequent.sorted _⟩
  case counted =>
    intro row member
    obtain ⟨process, listed, rfl⟩ := List.mem_map.mp (perm.mem_iff.mp member)
    obtain ⟨crash, there, same⟩ := List.mem_map.mp (List.mem_dedup.mp listed)
    exact ⟨rfl, List.countP_pos_iff.mpr ⟨crash, there, decide_eq_true same⟩⟩
  case complete =>
    intro crash there
    exact List.mem_map.mp (named.mem_iff.mpr (List.mem_dedup.mpr (List.mem_map_of_mem there)))
  case total =>
    have sum := sum_counts (database.rows.map (·.process)) (List.nodup_dedup _) fun _ => List.mem_dedup
    rw [List.length_map] at sum
    rw [(perm.map (·.2)).sum_eq, List.map_map, ← sum]
    congr 1
    apply List.map_congr_left
    intro process _
    rw [List.countP_map]
    rfl

/-- What the pages that sum the history up show, whatever requests there have been. -/
structure Summed (site : Site) (database : Database) (frequency : List (Text × Nat)) (recent : List Summary)
    (groups : List CrashGroup) : Prop where
  frequencies : Frequencies database frequency
  grouped : Groups database groups
  recent : ∃ order : List Crash, order.Perm database.rows ∧ order.Pairwise (fun first second => before first.ts second.ts = false) ∧
    recent = (order.take 10).map Summary.of
  /-- The groups with a row on the dashboard are the largest. -/
  largest : ∀ shown ∈ shownGroups groups, ∀ other ∈ groups, other ∉ shownGroups groups → other.count ≤ shown.count
  /-- The page of the groups has a row for every group, whatever SQLite chooses there. -/
  alike : ∀ other : Sql, ∃ all, (handle site database (.groups other)).1 = .groups all ∧ Groups database all ∧
    (all.map aggregates).Perm (groups.map aggregates)
  linked : ∀ group ∈ groups, ∃ crash, (handle site database (.crashDetail group.sampleCrashId)).1 = .detail crash ∧
    crash.signature = group.signature

/-- The dashboard always answers, its sums are those of the rows, and the link of each group leads to the group's latest crash. -/
theorem dashboard_sums_up (site : Site) (sql : Sql) (start : Database) (sequential : Sequential start) (requests : List Request)
    (small : (after site start requests).sequence ≤ maxInteger) :
    ∃ frequency recent groups counts,
      (handle site (after site start requests) (.dashboard sql)).1 = .dashboard frequency recent groups counts ∧
      Summed site (after site start requests) frequency recent groups := by
  have ordered : Sequential (after site start requests) := after_sequential sequential requests
  generalize after site start requests = database at small ordered ⊢
  have grouped := groups_exact sql database
  have fewest : ¬ (maxInteger < 10 ∨ maxInteger < 0) := by decide
  have days : ¬ 2 ^ 63 ≤ 14 := by decide
  refine ⟨getFrequency sql database.rows, ((selection sql database.rows [] []).take 10).map Summary.of, getCrashGroups sql database.rows,
    (((newestFirst sql.dates database.rows).take 14).map (dailyRow sql.dates database.rows)).reverse, ?_,
    frequencies_exact sql database, grouped, ⟨selection sql database.rows [] [], ?_, sql.newest.sorted _, rfl⟩, ?_, ?_, ?_⟩
  · rw [handle, dashboardPage, getCrashes, if_neg fewest, dailyCounts, if_neg days]
    rfl
  · refine (sql.newest.perm _).trans (List.Perm.of_eq (List.filter_eq_self.mpr fun crash _ => ?_))
    simp [Selected]
  · intro shown first other among hidden
    have split := grouped.sorted
    rw [← List.take_append_drop 5 (getCrashGroups sql database.rows)] at split among
    exact (List.pairwise_append.mp split).2.2 shown first other ((List.mem_append.mp among).resolve_left hidden)
  · intro other
    refine ⟨_, rfl, groups_exact other database, ?_⟩
    exact ((getCrashGroups_perm other database).map _).trans
      ((List.Perm.of_eq (aggregates_unordered other sql database.rows)).trans ((getCrashGroups_perm sql database).map _).symm)
  · intro group member
    obtain ⟨crash, there, number, same⟩ := ((grouped.tallied group member)).sample
    refine ⟨crash, ?_, same⟩
    rw [← number, detail_eq (Nat.le_trans (ordered.passed crash there) small), (find_iff ordered).mpr there]
    rfl

open CrashUploads (plainSite)

theorem plain_dashboard_sums_up :
    ∃ frequency recent groups counts,
      (handle plainSite (after plainSite twoPages [plainRequest, .deleteCrash 3]) (.dashboard plainSql)).1 =
        .dashboard frequency recent groups counts ∧
      Summed plainSite (after plainSite twoPages [plainRequest, .deleteCrash 3]) frequency recent groups := by
  refine dashboard_sums_up plainSite plainSql twoPages ⟨?_, by decide⟩ [plainRequest, .deleteCrash 3] (by decide)
  decide

end Tallies

end Crashomon.Proofs.CrashLists
