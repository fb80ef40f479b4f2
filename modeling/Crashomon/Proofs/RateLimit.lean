import Mathlib.Data.List.Induction
import Crashomon.Daemon.Worker

/-! Rate limiting over whole runs of the worker. The key of a crash determines
its process, signal and address, and the map holds the last emission of each. -/

namespace Crashomon.Proofs.RateLimit
open Bytes Daemon.DiskManager Daemon.MinidumpReader Daemon.Worker

structure Crash where
  processName : ByteString
  signalInfo : ByteString
  faultAddr : UInt64
  deriving DecidableEq

def crashOf (info : MinidumpInfo) : Crash := ⟨info.processName, info.signalInfo, info.faultAddr⟩

def Crash.key (crash : Crash) : ByteString :=
  crash.processName ++ colon :: crash.signalInfo ++ colon :: faultHex crash.faultAddr

def SignalForm (signalInfo : ByteString) : Prop := ∃ exception, (extractExceptionInfo exception).1 = signalInfo

section Key

private theorem digitChar_range : ∀ digit < 16, (Nat.digitChar digit).toNat < 256 ∧ (Nat.digitChar digit).toNat ≠ 58 := by
  decide

private theorem toDigits_range {base value : Nat} (large : 1 < base) (small : base ≤ 16) :
    ∀ digit ∈ Nat.toDigits base value, digit.toNat < 256 ∧ digit.toNat ≠ 58 :=
  forall_mem_toDigits large (fun digit below => digitChar_range digit (Nat.lt_of_lt_of_le below small)) value

private theorem ofNat_inj {first second : Nat} (low : first < 256) (high : second < 256)
    (same : UInt8.ofNat first = UInt8.ofNat second) : first = second := by
  have values := congrArg UInt8.toNat same
  simp only [UInt8.toNat_ofNat'] at values
  omega

theorem colon_not_mem_digits {base value : Nat} (large : 1 < base) (small : base ≤ 16) : colon ∉ digits base value := by
  intro member
  obtain ⟨digit, found, same⟩ := List.mem_map.mp member
  obtain ⟨bound, other⟩ := toDigits_range large small digit found
  exact other (ofNat_inj bound (by decide) same)

private theorem toDigits_injective {base first second : Nat} (large : 1 < base) (small : base ≤ 16)
    (same : Nat.toDigits base first = Nat.toDigits base second) : first = second := by
  have digit_injective : ∀ low < 16, ∀ high < 16, Nat.digitChar low = Nat.digitChar high → low = high := by decide
  have positive : 0 < base := by omega
  have below (value : Nat) (one : value < base) : value < 16 := by omega
  induction first using Nat.strongRecOn generalizing second with
  | ind first ih =>
    rw [Nat.toDigits_eq_if large, @Nat.toDigits_eq_if base second large] at same
    split at same
    next least =>
      split at same
      next other => exact digit_injective first (below first least) second (below second other) (List.singleton_inj.mp same)
      next above => exact absurd (congrArg List.length same) (by simp [Nat.toDigits_ne_nil])
    next above =>
      split at same
      next other => exact absurd (congrArg List.length same) (by simp [Nat.toDigits_ne_nil])
      next beyond =>
        obtain ⟨front, last⟩ := List.append_inj' same rfl
        have quotient := ih (first / base) (Nat.div_lt_self (by omega) large) front
        have remainder := digit_injective _ (below _ (Nat.mod_lt first positive)) _ (below _ (Nat.mod_lt second positive))
          (List.singleton_inj.mp last)
        rw [← Nat.div_add_mod first base, quotient, remainder, Nat.div_add_mod]

private theorem characters {base value : Nat} (large : 1 < base) (small : base ≤ 16) :
    (digits base value).map (fun byte => Char.ofNat byte.toNat) = Nat.toDigits base value := by
  have back (digit : Char) (member : digit ∈ Nat.toDigits base value) :
      Char.ofNat (UInt8.ofNat digit.toNat).toNat = digit := by
    rw [UInt8.toNat_ofNat', Nat.mod_eq_of_lt (toDigits_range large small digit member).1, Char.ofNat_toNat]
  rw [digits, List.map_map]
  exact (List.map_congr_left back).trans (List.map_id _)

theorem digits_injective {base first second : Nat} (large : 1 < base) (small : base ≤ 16)
    (same : digits base first = digits base second) : first = second := by
  apply toDigits_injective large small
  rw [← characters large small, same, characters large small]

theorem faultHex_eq (faultAddr : UInt64) : faultHex faultAddr = digits 16 faultAddr.toNat := by
  have fits : (Nat.toDigits 16 faultAddr.toNat).length ≤ 16 :=
    (Nat.length_toDigits_le_iff (by decide) (by decide)).mpr faultAddr.toNat_lt
  have room : (digits kHexBase faultAddr.toNat).length ≤ kFaultAddrHexBufSize - 1 := by
    rw [digits, List.length_map]
    exact fits
  rw [faultHex, toChars, if_pos room]
  rfl

theorem colon_not_mem_signal {signalInfo : ByteString} (form : SignalForm signalInfo) : colon ∉ signalInfo := by
  have names : ∀ entry ∈ kSigNames, colon ∉ entry.2 := by decide +kernel
  have codes : ∀ entry ∈ kSegvCodes, colon ∉ ascii " / " ++ entry.2 := by decide +kernel
  have label : colon ∉ ascii "signal " := by decide +kernel
  obtain ⟨exception, rfl⟩ := form
  cases exception with
  | none => exact List.not_mem_nil
  | some rec =>
    have named : colon ∉ (kSigNames.lookup rec.exceptionCode).getD (ascii "signal " ++ digits 10 rec.exceptionCode.toNat) := by
      cases found : kSigNames.lookup rec.exceptionCode with
      | some name => exact names _ (mem_of_lookup found)
      | none =>
        intro member
        rcases List.mem_append.mp member with front | back
        · exact label front
        · exact colon_not_mem_digits (by decide) (by decide) back
    rw [extractExceptionInfo]
    split
    next =>
      split
      next codeName found =>
        intro member
        rw [List.append_assoc] at member
        rcases List.mem_append.mp member with front | back
        · exact named front
        · exact codes _ (mem_of_lookup found) back
      next => exact named
    next => exact named

/-- The key leaves no doubt about the crash, whatever colons the process name has. -/
theorem key_injective {first second : Crash} (form : SignalForm first.signalInfo) (other : SignalForm second.signalInfo)
    (same : first.key = second.key) : first = second := by
  obtain ⟨firstName, firstSignal, firstAddr⟩ := first
  obtain ⟨secondName, secondSignal, secondAddr⟩ := second
  have hex (faultAddr : UInt64) : colon ∉ faultHex faultAddr := by
    rw [faultHex_eq]
    exact colon_not_mem_digits (by decide) (by decide)
  obtain ⟨front, addresses⟩ := split_at_last (hex firstAddr) (hex secondAddr) same
  obtain ⟨names, signals⟩ := split_at_last (colon_not_mem_signal form) (colon_not_mem_signal other) front
  rw [faultHex_eq, faultHex_eq] at addresses
  cases names
  cases signals
  cases UInt64.toNat_inj.mp (digits_injective (by decide) (by decide) addresses)
  rfl

end Key

structure Emission where
  crash : Crash
  time : Int

/-- The tombstone that processing a dump writes to the log, where it writes one. -/
def emission (setup : Setup) (call : Circumstances) (path : ByteString) (world : World) : Option Emission :=
  match call.readMinidump with
  | .error _ => none
  | .ok info => if (processNewMinidump setup call path world).log = world.log then none else some ⟨crashOf info, call.now⟩

def emissions (setup : Setup) : List (ByteString × Circumstances) → World → List Emission
  | [], _ => []
  | (path, call) :: rest, world =>
    (emission setup call path world).toList ++ emissions setup rest (processNewMinidump setup call path world)

section Step
variable {setup : Setup} {call : Circumstances} {path : ByteString} {world : World} {info : MinidumpInfo}

theorem process_unreadable {failure : Daemon.StatusError} (unread : call.readMinidump = .error failure) :
    (processNewMinidump setup call path world).log = world.log ∧
      (processNewMinidump setup call path world).rateLimitMap = world.rateLimitMap := by
  simp only [processNewMinidump, pruneWorld, reportMinidump, unread, and_self]

theorem process_suppressed (read : call.readMinidump = .ok info) (seen : Suppressed world call info) :
    (processNewMinidump setup call path world).log = world.log ∧
      (processNewMinidump setup call path world).rateLimitMap = world.rateLimitMap := by
  have unchanged (files : List StoredFile) : Suppressed { world with pending := files } call info := seen
  simp only [processNewMinidump, pruneWorld, reportMinidump, read, unchanged, if_true, and_self]

private theorem export_keeps {exportPath : ByteString} :
    (exportMinidump call exportPath path info world).log = world.log ∧
      (exportMinidump call exportPath path info world).rateLimitMap = world.rateLimitMap := by
  unfold exportMinidump
  split
  next => exact ⟨rfl, rfl⟩
  next => exact ⟨rfl, rfl⟩

theorem process_emitted (read : call.readMinidump = .ok info) (unseen : ¬ Suppressed world call info) :
    (processNewMinidump setup call path world).log = world.log ++ [setup.formatTombstone info] ∧
      (processNewMinidump setup call path world).rateLimitMap =
        (rateLimitKey info, call.now) :: world.rateLimitMap.filter fun entry => entry.1 ≠ rateLimitKey info := by
  have changed (files : List StoredFile) : ¬ Suppressed { world with pending := files } call info := unseen
  simp only [processNewMinidump, pruneWorld, reportMinidump, read, changed, if_false]
  split
  next => exact ⟨rfl, rfl⟩
  next => exact export_keeps

theorem log_unchanged_iff (read : call.readMinidump = .ok info) :
    (processNewMinidump setup call path world).log = world.log ↔ Suppressed world call info := by
  by_cases seen : Suppressed world call info
  · exact ⟨fun _ => seen, fun _ => (process_suppressed read seen).1⟩
  · refine ⟨fun same => ?_, fun impossible => absurd impossible seen⟩
    rw [(process_emitted read seen).1] at same
    exact absurd (congrArg List.length same) (by simp)

end Step

def lastTime (past : List Emission) (crash : Crash) : Option Int :=
  (past.reverse.find? fun emitted => emitted.crash = crash).map Emission.time

/-- The map holds, for each crash that can occur, the time of its last emission. -/
def Tracks (past : List Emission) (map : List (ByteString × Int)) : Prop :=
  ∀ crash : Crash, SignalForm crash.signalInfo → map.lookup crash.key = lastTime past crash

private theorem lookup_filter_ne {key other : ByteString} (different : key ≠ other) (entries : List (ByteString × Int)) :
    (entries.filter fun entry => entry.1 ≠ other).lookup key = entries.lookup key := by
  induction entries with
  | nil => rfl
  | cons entry rest ih =>
    by_cases removed : entry.1 = other
    · have unequal : (key == entry.1) = false := beq_false_of_ne fun same => different (same.trans removed)
      rw [List.filter_cons_of_neg (by simp [removed]), ih, List.lookup_cons, unequal]
    · rw [List.filter_cons_of_pos (by simp [removed]), List.lookup_cons, List.lookup_cons, ih]

theorem tracks_step {setup : Setup} {call : Circumstances} {path : ByteString} {world : World} {past : List Emission}
    (tracks : Tracks past world.rateLimitMap)
    (form : ∀ info, call.readMinidump = .ok info → SignalForm info.signalInfo) :
    Tracks (past ++ (emission setup call path world).toList) (processNewMinidump setup call path world).rateLimitMap := by
  cases read : call.readMinidump with
  | error failure =>
    rw [emission, read, (process_unreadable read).2]
    simpa only [Option.toList_none, List.append_nil] using tracks
  | ok info =>
    by_cases seen : Suppressed world call info
    · rw [emission, read, (process_suppressed read seen).2]
      simpa only [(log_unchanged_iff read).mpr seen, if_true, Option.toList_none, List.append_nil] using tracks
    · have grown : ¬ (processNewMinidump setup call path world).log = world.log :=
        fun same => seen ((log_unchanged_iff read).mp same)
      intro crash valid
      simp only [emission, read, grown, if_false, Option.toList_some, lastTime, List.reverse_append, List.reverse_singleton,
        List.singleton_append, (process_emitted read seen).2]
      by_cases same : crashOf info = crash
      · subst same
        rw [List.find?_cons_of_pos (by simp)]
        exact List.lookup_cons_self
      · have different : crash.key ≠ rateLimitKey info := fun equal =>
          same (key_injective (form info read : SignalForm (crashOf info).signalInfo) valid equal.symm)
        rw [List.find?_cons_of_neg (by simpa using same), List.lookup_cons, beq_false_of_ne different]
        exact (lookup_filter_ne different _).trans (tracks crash valid)

theorem emissions_append {setup : Setup} {first second : List (ByteString × Circumstances)} {world : World} :
    emissions setup (first ++ second) world =
      emissions setup first world ++ emissions setup second (processAll setup first world) := by
  induction first generalizing world with
  | nil => rfl
  | cons head rest ih =>
    obtain ⟨path, call⟩ := head
    simp only [List.cons_append, emissions, ih, List.append_assoc, processAll, List.foldl_cons]

/-- The map tracks the emissions of every run that starts with an empty map. -/
theorem tracks_run {setup : Setup} {start : World} {calls : List (ByteString × Circumstances)}
    (fresh : start.rateLimitMap = [])
    (forms : ∀ call ∈ calls, ∀ info, call.2.readMinidump = .ok info → SignalForm info.signalInfo) :
    Tracks (emissions setup calls start) (processAll setup calls start).rateLimitMap := by
  induction calls using List.reverseRecOn with
  | nil =>
    intro crash _
    rw [processAll, List.foldl_nil, fresh]
    rfl
  | append_singleton calls last ih =>
    obtain ⟨path, call⟩ := last
    have before := ih fun earlier member => forms earlier (List.mem_append_left _ member)
    rw [emissions_append]
    simpa only [processAll, List.foldl_append, List.foldl_cons, List.foldl_nil, emissions, List.append_nil] using
      tracks_step before (forms (path, call) (List.mem_append_right _ List.mem_cons_self))

theorem lastTime_latest {past : List Emission} {crash : Crash} {earlier : Emission}
    (ordered : past.Pairwise fun first second => first.time ≤ second.time) (member : earlier ∈ past)
    (same : earlier.crash = crash) : ∃ time, lastTime past crash = some time ∧ earlier.time ≤ time := by
  induction past using List.reverseRecOn with
  | nil => cases member
  | append_singleton past last ih =>
    obtain ⟨before, _, within⟩ := List.pairwise_append.mp ordered
    by_cases final : last.crash = crash
    · refine ⟨last.time, ?_, ?_⟩
      · rw [lastTime, List.reverse_append, List.reverse_singleton, List.singleton_append, List.find?_cons_of_pos (by simpa using final)]
        rfl
      · rcases List.mem_append.mp member with front | back
        · exact within earlier front last List.mem_cons_self
        · rw [List.mem_singleton.mp back]
    · have front : earlier ∈ past := by
        rcases List.mem_append.mp member with front | back
        · exact front
        · exact absurd (List.mem_singleton.mp back ▸ same) final
      rw [lastTime, List.reverse_append, List.reverse_singleton, List.singleton_append,
        List.find?_cons_of_neg (by simpa using final)]
      exact ih before front

theorem mem_of_lastTime {past : List Emission} {crash : Crash} {time : Int} (found : lastTime past crash = some time) :
    ∃ earlier ∈ past, earlier.crash = crash ∧ earlier.time = time := by
  obtain ⟨earlier, last, same⟩ := Option.map_eq_some_iff.mp found
  exact ⟨earlier, List.mem_reverse.mp (List.mem_of_find?_eq_some last), by simpa using List.find?_some last, same⟩

/-- Where the map tracks the past, a dump is suppressed for one reason only. -/
theorem suppressed_iff {past : List Emission} {world : World} {call : Circumstances} {info : MinidumpInfo}
    (tracks : Tracks past world.rateLimitMap) (form : SignalForm info.signalInfo)
    (ordered : past.Pairwise fun first second => first.time ≤ second.time) :
    Suppressed world call info ↔
      ∃ earlier ∈ past, earlier.crash = crashOf info ∧ call.now - earlier.time < kRateLimitWindow := by
  have stored : world.rateLimitMap.lookup (rateLimitKey info) = lastTime past (crashOf info) := tracks (crashOf info) form
  constructor
  · intro ⟨seen, found, recent⟩
    rw [stored] at found
    obtain ⟨earlier, member, same, time⟩ := mem_of_lastTime found
    exact ⟨earlier, member, same, time ▸ recent⟩
  · intro ⟨earlier, member, same, recent⟩
    obtain ⟨time, found, later⟩ := lastTime_latest ordered member same
    exact ⟨time, stored.trans found, by omega⟩

theorem emissions_snoc {setup : Setup} {calls : List (ByteString × Circumstances)} {path : ByteString}
    {call : Circumstances} {world : World} :
    emissions setup (calls ++ [(path, call)]) world =
      emissions setup calls world ++ (emission setup call path (processAll setup calls world)).toList := by
  rw [emissions_append, emissions, emissions, List.append_nil]

theorem mem_emission {setup : Setup} {path : ByteString} {call : Circumstances} {world : World} {emitted : Emission}
    (member : emitted ∈ (emission setup call path world).toList) :
    ∃ info, call.readMinidump = .ok info ∧ emitted = ⟨crashOf info, call.now⟩ ∧ ¬ Suppressed world call info := by
  have found := Option.mem_toList.mp member
  cases read : call.readMinidump with
  | error failure => simp [emission, read] at found
  | ok info =>
    rw [emission, read] at found
    simp only at found
    split at found
    next => cases found
    next grown =>
      cases found
      exact ⟨info, rfl, rfl, fun seen => grown ((log_unchanged_iff read).mpr seen)⟩

section Run
variable {setup : Setup} {start : World} {calls : List (ByteString × Circumstances)}

theorem emissions_ordered (monotone : calls.Pairwise fun first second => first.2.now ≤ second.2.now) :
    (∀ emitted ∈ emissions setup calls start, ∃ call ∈ calls, emitted.time = call.2.now) ∧
      (emissions setup calls start).Pairwise fun first second => first.time ≤ second.time := by
  induction calls using List.reverseRecOn with
  | nil => exact ⟨List.forall_mem_nil _, List.Pairwise.nil⟩
  | append_singleton calls last ih =>
    obtain ⟨path, call⟩ := last
    obtain ⟨before, _, within⟩ := List.pairwise_append.mp monotone
    obtain ⟨clocks, ordered⟩ := ih before
    rw [emissions_snoc]
    refine ⟨fun emitted member => ?_, List.pairwise_append.mpr ⟨ordered, ?_, fun earlier front later back => ?_⟩⟩
    · rcases List.mem_append.mp member with front | back
      · obtain ⟨other, found, time⟩ := clocks emitted front
        exact ⟨other, List.mem_append_left _ found, time⟩
      · obtain ⟨info, _, same, _⟩ := mem_emission back
        exact ⟨(path, call), List.mem_append_right _ List.mem_cons_self, by rw [same]⟩
    · cases emission setup call path (processAll setup calls start) with
      | none => exact List.Pairwise.nil
      | some emitted => exact List.pairwise_singleton _ _
    · obtain ⟨other, found, time⟩ := clocks earlier front
      obtain ⟨info, _, same, _⟩ := mem_emission back
      rw [time, same]
      exact within other found (path, call) List.mem_cons_self

/-- Consecutive emissions of one crash are a window apart. -/
theorem emissions_apart (fresh : start.rateLimitMap = [])
    (monotone : calls.Pairwise fun first second => first.2.now ≤ second.2.now)
    (forms : ∀ call ∈ calls, ∀ info, call.2.readMinidump = .ok info → SignalForm info.signalInfo) :
    (emissions setup calls start).Pairwise fun first second =>
      first.crash = second.crash → kRateLimitWindow ≤ second.time - first.time := by
  induction calls using List.reverseRecOn with
  | nil => exact List.Pairwise.nil
  | append_singleton calls last ih =>
    obtain ⟨path, call⟩ := last
    have before := (List.pairwise_append.mp monotone).1
    have earlier_forms := fun other member => forms other (List.mem_append_left [(path, call)] member)
    rw [emissions_snoc]
    refine List.pairwise_append.mpr ⟨ih before earlier_forms, ?_, fun earlier front later back same => ?_⟩
    · cases emission setup call path (processAll setup calls start) with
      | none => exact List.Pairwise.nil
      | some emitted => exact List.pairwise_singleton _ _
    · obtain ⟨info, read, emitted, unseen⟩ := mem_emission back
      have form := forms (path, call) (List.mem_append_right _ List.mem_cons_self) info read
      have tracks : Tracks (emissions setup calls start) (processAll setup calls start).rateLimitMap :=
        tracks_run fresh earlier_forms
      rw [emitted] at same ⊢
      apply Int.not_lt.mp
      intro recent
      exact unseen ((suppressed_iff tracks form (emissions_ordered before).2).mpr ⟨earlier, front, same, recent⟩)

/-- In every run a readable dump is suppressed exactly when its crash was emitted
less than a window ago, and emissions of one crash are at least a window apart. -/
theorem suppresses_exactly_repeats (fresh : start.rateLimitMap = [])
    (monotone : calls.Pairwise fun first second => first.2.now ≤ second.2.now)
    (forms : ∀ call ∈ calls, ∀ info, call.2.readMinidump = .ok info → SignalForm info.signalInfo) :
    (∀ before path call after info, calls = before ++ (path, call) :: after → call.readMinidump = .ok info →
      ((processNewMinidump setup call path (processAll setup before start)).log = (processAll setup before start).log ↔
        ∃ earlier ∈ emissions setup before start,
          earlier.crash = crashOf info ∧ call.now - earlier.time < kRateLimitWindow)) ∧
      (emissions setup calls start).Pairwise fun first second =>
        first.crash = second.crash → kRateLimitWindow ≤ second.time - first.time := by
  refine ⟨fun before path call after info split read => ?_, emissions_apart fresh monotone forms⟩
  subst split
  have form := forms (path, call) (List.mem_append_right _ List.mem_cons_self) info read
  have earlier_forms := fun other member => forms other (List.mem_append_left ((path, call) :: after) member)
  rw [log_unchanged_iff read]
  exact suppressed_iff (tracks_run fresh earlier_forms) form (emissions_ordered (List.pairwise_append.mp monotone).1).2

end Run

def workingCalls : DirectoryCalls := ⟨true, true, fun _ => some true, fun _ => true, fun _ => true, 0, []⟩

def quietSetup : Setup := ⟨⟨[], [], 0, 0⟩, [], fun info => info.processName, false, stableSort⟩

/-- A process "a:b" that dies of SIGSEGV at the given time. -/
def crashAt (now : Int) : ByteString × Circumstances :=
  (ascii "crash.dmp", ⟨.ok (), none, 0, .ok ⟨ascii "a:b", ascii "SIGSEGV", 16, []⟩, now, [], false, 0, workingCalls, workingCalls⟩)

def threeCrashes : List (ByteString × Circumstances) := [crashAt 0, crashAt 10000000000, crashAt 40000000000]

theorem threeCrashes_suppress_one :
    (∀ before path call after info, threeCrashes = before ++ (path, call) :: after → call.readMinidump = .ok info →
      ((processNewMinidump quietSetup call path (processAll quietSetup before ⟨[], [], [], []⟩)).log =
          (processAll quietSetup before ⟨[], [], [], []⟩).log ↔
        ∃ earlier ∈ emissions quietSetup before ⟨[], [], [], []⟩,
          earlier.crash = crashOf info ∧ call.now - earlier.time < kRateLimitWindow)) ∧
      (emissions quietSetup threeCrashes ⟨[], [], [], []⟩).Pairwise fun first second =>
        first.crash = second.crash → kRateLimitWindow ≤ second.time - first.time := by
  refine suppresses_exactly_repeats rfl ?_ fun call member info read => ?_
  · simp [threeCrashes, crashAt]
  · have same : call.2.readMinidump = .ok ⟨ascii "a:b", ascii "SIGSEGV", 16, []⟩ := by
      simp only [threeCrashes, List.mem_cons, List.not_mem_nil, or_false] at member
      rcases member with rfl | rfl | rfl <;> rfl
    rw [same] at read
    cases read
    exact ⟨some ⟨11, 0, 0⟩, by decide +kernel⟩

end Crashomon.Proofs.RateLimit
