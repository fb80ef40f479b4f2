import Crashomon.Daemon.ExportPath
import Crashomon.Proofs.ExportNames
import Crashomon.Proofs.RateLimit

/-! The file of an exported dump: where it lies, the shape of its name and what can be read
back from it. -/

namespace Crashomon.Proofs.ExportPaths
open Daemon.DiskManager Daemon.MinidumpReader Daemon.Worker Daemon.ExportPath
open ExportNames Calendar

/-- The name lies in the directory, with no other directory in between. -/
structure ChildOf (dir name path : ByteString) : Prop where
  place : path = dir ++ name ∧ (dir = [] ∨ dir.getLast? = some slash) ∨ path = dir ++ slash :: name
  plain : slash ∉ name ∧ 0 ∉ name
  named : name ≠ [] ∧ name ≠ [dot] ∧ name ≠ [dot, dot]

/-- The three parts of a file name. -/
structure Parts where
  process : ByteString
  time : ByteString
  buildId : ByteString
  deriving DecidableEq

def isSafe (chr : UInt8) : Bool := isAlnum chr || chr = 45 || chr = 95

def isLowerHex (chr : UInt8) : Bool := isDigit chr || 97 ≤ chr && chr ≤ 102

/-- The name is made up of the parts: safe characters, 14 digits and 8 lower-case hexadecimal digits. -/
structure Reads (name : ByteString) (parts : Parts) : Prop where
  whole : name = ((parts.process ++ underscore :: parts.time) ++ underscore :: parts.buildId) ++ ascii ".crashdump"
  process : parts.process.all isSafe = true
  time : parts.time.length = 14 ∧ parts.time.all isDigit = true
  buildId : parts.buildId.length = 8 ∧ parts.buildId.all isLowerHex = true

/-- A test that all values of a byte pass. -/
theorem of_values {holds : UInt8 → Bool} (each : ∀ value < 256, holds (UInt8.ofNat value) = true) (chr : UInt8) : holds chr = true := by
  have here := each chr.toNat chr.toNat_lt
  rw [UInt8.ofNat_toNat] at here
  exact here

section Timestamps

theorem isDigit_digits (value : Nat) : (digits 10 value).all isDigit = true := by
  have each : ∀ digit < 10, isDigit (UInt8.ofNat (Nat.digitChar digit).toNat) = true := by decide
  rw [digits, List.all_map, List.all_eq_true]
  exact forall_mem_toDigits (by decide) each value

theorem length_twoDigits : ∀ value < 100, (twoDigits value).length = 2 := by decide +kernel

theorem isDigit_twoDigits (value : Nat) : (twoDigits value).all isDigit = true := by
  rw [twoDigits, List.all_append, isDigit_digits, Bool.and_true]
  exact List.all_eq_true.mpr fun chr member => by rw [List.eq_of_mem_replicate member]; decide

theorem length_four {value : Nat} (fourDigits : 1000 ≤ value ∧ value ≤ 9999) : (digits 10 value).length = 4 := by
  have base : 1 < 10 := by decide
  rw [digits, List.length_map, Nat.toDigits_eq_if base, if_neg (by omega), Nat.toDigits_eq_if base, if_neg (by omega),
    Nat.toDigits_eq_if base, if_neg (by omega), Nat.toDigits_eq_if base, if_pos (by omega)]
  rfl

/-- The year of a clock value. -/
def yearOf (now : Int) : Int := (dateOf (now / 86400)).year

theorem gmtimeR_bounds (now : Int) :
    (gmtimeR now).tmMon + 1 < 100 ∧ (gmtimeR now).tmMday < 100 ∧ (gmtimeR now).tmHour < 100 ∧ (gmtimeR now).tmMin < 100 ∧
      (gmtimeR now).tmSec < 100 := by
  have month := (dateOf (now / 86400)).monthBounds
  have day := (dateOf (now / 86400)).dayBounds
  have second : (now % 86400).toNat < 86400 := by omega
  unfold gmtimeR
  dsimp only
  omega

/-- Two clock values that break down alike are the same second. -/
theorem gmtimeR_injective {first second : Int} (same : gmtimeR first = gmtimeR second) : first = second := by
  have months := (dateOf (first / 86400)).monthBounds
  have others := (dateOf (second / 86400)).monthBounds
  obtain ⟨year, month, day, hour, minute, rest⟩ := Tm.mk.inj same
  have days : (dateOf (first / 86400)).days = (dateOf (second / 86400)).days := by
    have years : (dateOf (first / 86400)).year = (dateOf (second / 86400)).year := by omega
    have dates : (dateOf (first / 86400)).month = (dateOf (second / 86400)).month := by omega
    rw [Date.days, Date.days, years, dates, day]
  rw [days_dateOf, days_dateOf] at days
  omega

theorem year_four {now : Int} (fourDigits : 1000 ≤ yearOf now ∧ yearOf now ≤ 9999) :
    (year (gmtimeR now)).length = 4 ∧ (year (gmtimeR now)).all isDigit = true := by
  have same : (gmtimeR now).tmYear + 1900 = yearOf now := Int.sub_add_cancel _ _
  rw [year, same, if_neg (by omega)]
  exact ⟨length_four (by omega), isDigit_digits _⟩

/-- A year of four digits makes a time of fourteen. -/
theorem timestamp_four {now : Int} (fourDigits : 1000 ≤ yearOf now ∧ yearOf now ≤ 9999) :
    ∃ stamp, timestamp now = some stamp ∧ stamp.length = 14 ∧ stamp.all isDigit = true := by
  obtain ⟨length, digit⟩ := year_four fourDigits
  obtain ⟨month, day, hour, minute, second⟩ := gmtimeR_bounds now
  have whole : (year (gmtimeR now) ++ twoDigits ((gmtimeR now).tmMon + 1) ++ twoDigits (gmtimeR now).tmMday ++
      twoDigits (gmtimeR now).tmHour ++ twoDigits (gmtimeR now).tmMin ++ twoDigits (gmtimeR now).tmSec).length = 14 := by
    simp only [List.length_append, length, length_twoDigits _ month, length_twoDigits _ day, length_twoDigits _ hour,
      length_twoDigits _ minute, length_twoDigits _ second]
  refine ⟨_, if_pos (whole ▸ by decide), whole, ?_⟩
  simp only [List.all_append, digit, isDigit_twoDigits, Bool.and_self]

theorem year_injective {first second : Tm} (same : year first = year second) : first.tmYear = second.tmYear := by
  have unsigned (value rest : Nat) : digits 10 value ≠ 45 :: digits 10 rest := by
    intro signed
    have minus : isDigit 45 = true :=
      List.all_eq_true.mp (isDigit_digits value) 45 (signed ▸ List.mem_cons_self)
    cases minus
  unfold year at same
  split at same
  next negative =>
    split at same
    next other =>
      have magnitudes := RateLimit.digits_injective (by decide) (by decide) (List.cons.inj same).2
      omega
    next => exact absurd same.symm (unsigned _ _)
  next positive =>
    split at same
    next => exact absurd same (unsigned _ _)
    next other =>
      have magnitudes := RateLimit.digits_injective (by decide) (by decide) same
      omega

theorem twoDigits_injective {first second : Nat} (low : first < 100) (high : second < 100) (same : twoDigits first = twoDigits second) :
    first = second := by
  have read : ∀ value < 100, (twoDigits value).foldl (fun front chr => 10 * front + (chr.toNat - 48)) 0 = value := by
    decide +kernel
  rw [← read first low, same, read second high]

/-- Two parts at the end of two equal texts, of two digits each. -/
theorem twoDigits_last {first second : Nat} {front back : ByteString} (low : first < 100) (high : second < 100)
    (same : front ++ twoDigits first = back ++ twoDigits second) : front = back ∧ first = second := by
  obtain ⟨fronts, lasts⟩ := List.append_inj' same ((length_twoDigits first low).trans (length_twoDigits second high).symm)
  exact ⟨fronts, twoDigits_injective low high lasts⟩

/-- The time in the name of an export tells its second. -/
theorem timestamp_injective {now other : Int} {stamp : ByteString} (told : timestamp now = some stamp)
    (again : timestamp other = some stamp) : other = now := by
  obtain ⟨month, day, hour, minute, second⟩ := gmtimeR_bounds now
  obtain ⟨month', day', hour', minute', second'⟩ := gmtimeR_bounds other
  have texts := (Option.ite_none_right_eq_some.mp again).2.trans (Option.ite_none_right_eq_some.mp told).2.symm
  obtain ⟨texts, seconds⟩ := twoDigits_last second' second (Option.some.inj texts)
  obtain ⟨texts, minutes⟩ := twoDigits_last minute' minute texts
  obtain ⟨texts, hours⟩ := twoDigits_last hour' hour texts
  obtain ⟨texts, days⟩ := twoDigits_last day' day texts
  obtain ⟨texts, months⟩ := twoDigits_last month' month texts
  apply gmtimeR_injective
  exact Tm.mk.injEq .. ▸ ⟨year_injective texts, Nat.add_right_cancel months, days, hours, minutes, seconds⟩

end Timestamps

section Names
variable {info : MinidumpInfo} {stamp : ByteString}

theorem isSafe_sanitized (info : MinidumpInfo) : (sanitized info).all isSafe = true := by
  rw [sanitized, List.all_map, List.all_eq_true]
  intro chr _
  rw [Function.comp_apply]
  split
  next kept => rw [isSafe, kept, Bool.true_or]
  next => rfl

theorem length_shortId (info : MinidumpInfo) : (shortId info).length = 8 := by
  have short : (buildIdDigits info).length ≤ 8 := by
    rw [buildIdDigits, List.length_map]
    exact List.length_take_le _ _
  rw [shortId, List.length_append, List.length_replicate]
  omega

theorem isLowerHex_toLower (chr : UInt8) : (!isXDigit chr || isLowerHex (toLower chr)) = true :=
  @of_values (fun chr => !isXDigit chr || isLowerHex (toLower chr)) (by decide +kernel) chr

theorem isSafe_of_hex (chr : UInt8) : (!isLowerHex chr || isSafe chr) = true :=
  @of_values (fun chr => !isLowerHex chr || isSafe chr) (by decide +kernel) chr

theorem isLowerHex_shortId (info : MinidumpInfo) : (shortId info).all isLowerHex = true := by
  rw [List.all_eq_true]
  intro chr member
  rcases List.mem_append.mp member with digit | filler
  · obtain ⟨original, kept, rfl⟩ := List.mem_map.mp digit
    have hex : isXDigit original = true := (List.mem_filter.mp (List.mem_of_mem_take kept)).2
    have lowered := isLowerHex_toLower original
    rw [hex] at lowered
    exact lowered
  · rw [List.eq_of_mem_replicate filler]
    rfl

theorem reads_exportName (info : MinidumpInfo) (length : stamp.length = 14) (clock : stamp.all isDigit = true) :
    Reads (exportName info stamp) ⟨sanitized info, stamp, shortId info⟩ :=
  ⟨exportName_eq info stamp, isSafe_sanitized info, ⟨length, clock⟩, length_shortId info, isLowerHex_shortId info⟩

theorem underscore_not_mem_hex {bid : ByteString} (hex : bid.all isLowerHex = true) : underscore ∉ bid := by
  intro member
  exact absurd (List.all_eq_true.mp hex underscore member) (by decide)

/-- A name has one reading: its last two underscores separate the parts. -/
theorem reads_unique {name : ByteString} {first second : Parts} (one : Reads name first) (other : Reads name second) :
    first = second := by
  have stems := List.append_cancel_right (one.whole.symm.trans other.whole)
  obtain ⟨front, ids⟩ :=
    split_at_last (underscore_not_mem_hex one.buildId.2) (underscore_not_mem_hex other.buildId.2) stems
  obtain ⟨names, times⟩ :=
    split_at_last (underscore_not_mem_digits one.time.2) (underscore_not_mem_digits other.time.2) front
  cases first
  cases second
  exact Parts.mk.injEq .. ▸ ⟨names, times, ids⟩

theorem isSafe_parts {name : ByteString} {parts : Parts} (reads : Reads name parts) :
    ((parts.process ++ underscore :: parts.time) ++ underscore :: parts.buildId).all isSafe = true := by
  have time : parts.time.all isSafe = true := by
    refine List.all_eq_true.mpr fun chr member => ?_
    have digit := List.all_eq_true.mp reads.time.2 chr member
    rw [isSafe, isAlnum, digit]
    rfl
  have buildId : parts.buildId.all isSafe = true := by
    refine List.all_eq_true.mpr fun chr member => ?_
    have kept := isSafe_of_hex chr
    rw [List.all_eq_true.mp reads.buildId.2 chr member] at kept
    exact kept
  simp only [List.all_append, List.all_cons, reads.process, time, buildId, Bool.and_true]
  rfl

/-- A name has no slash and no NUL, and a stem before its extension. -/
theorem reads_plain {name : ByteString} {parts : Parts} (reads : Reads name parts) :
    (slash ∉ name ∧ 0 ∉ name) ∧ ∃ stem, stem ≠ [] ∧ name = stem ++ dot :: ascii "crashdump" := by
  have safe := isSafe_parts reads
  have whole := reads.whole
  generalize stemmed : (parts.process ++ underscore :: parts.time) ++ underscore :: parts.buildId = stem at safe whole
  have absent (chr : UInt8) (unsafe_chr : isSafe chr = false) (other : chr ∉ ascii ".crashdump") : chr ∉ name := by
    rw [whole, List.mem_append]
    rintro (front | ending)
    · rw [List.all_eq_true.mp safe chr front] at unsafe_chr
      cases unsafe_chr
    · exact other ending
  refine ⟨⟨absent slash (by decide) (by decide), absent 0 (by decide) (by decide)⟩, stem, ?_, whole⟩
  rw [← stemmed]
  simp

end Names

section Paths
variable {dir name path : ByteString}

/-- What follows the last separator, where a text ends in one or is all of it. -/
theorem last_part {separator : UInt8} {front last : ByteString} (separated : front = [] ∨ front.getLast? = some separator)
    (plain : separator ∉ last) : ((front ++ last).reverse.takeWhile (· ≠ separator)).reverse = last := by
  have kept : ∀ chr ∈ last.reverse, decide (chr ≠ separator) = true := by
    intro chr member
    exact decide_eq_true fun same => plain (List.mem_reverse.mp (same ▸ member))
  have stop : front.reverse.takeWhile (fun chr => decide (chr ≠ separator)) = [] := by
    rcases separated with rfl | ends
    · rfl
    · rw [← List.head?_reverse] at ends
      obtain ⟨rest, split⟩ := List.head?_eq_some_iff.mp ends
      rw [split, List.takeWhile_cons, if_neg (by simp)]
  rw [List.reverse_append, List.takeWhile_append_of_pos kept, stop, List.append_nil, List.reverse_reverse]

theorem snoc_append (front : ByteString) (separator : UInt8) (last : ByteString) :
    front ++ separator :: last = front ++ [separator] ++ last := by
  rw [List.append_assoc, List.singleton_append]

theorem filename_child (child : ChildOf dir name path) : filename path = name := by
  rcases child.place with ⟨rfl, separated⟩ | rfl
  · exact last_part separated child.plain.1
  · rw [snoc_append]
    exact last_part (Or.inr List.getLast?_concat) child.plain.1

theorem extension_child (child : ChildOf dir name path) {stem ext : ByteString} (some_stem : stem ≠ []) (free : dot ∉ ext)
    (split : name = stem ++ dot :: ext) : extension path = dot :: ext := by
  have suffix : (name.reverse.takeWhile (· ≠ dot)).reverse = ext := by
    rw [split, snoc_append]
    exact last_part (Or.inr List.getLast?_concat) free
  have stemLength := List.length_pos_iff.mpr some_stem
  have length : name.length = stem.length + (ext.length + 1) := by rw [split, List.length_append, List.length_cons]
  rw [extension, filename_child child, suffix]
  refine if_neg fun dots => dots.elim child.named.2.2 fun short => ?_
  omega

theorem child_append {name : ByteString} {parts : Parts} (reads : Reads name parts) (exportPath : ByteString) :
    ChildOf exportPath name (append exportPath name) := by
  obtain ⟨plain, stem, some_stem, split⟩ := reads_plain reads
  have relative : name.head? ≠ some slash := fun absolute => plain.1 (List.mem_of_head? absolute)
  have long : 3 ≤ name.length := by
    rw [split, List.length_append, List.length_cons, show (ascii "crashdump").length = 9 by decide]
    omega
  have other (short : ByteString) (few : short.length < 3) : name ≠ short := by
    intro same
    rw [same] at long
    omega
  refine ⟨?_, plain, other _ (by decide), other _ (by decide), other _ (by decide)⟩
  rw [append, if_neg relative]
  split
  next separated => exact Or.inl ⟨rfl, separated⟩
  next => exact Or.inr rfl

theorem append_bare {exportPath name : ByteString} (relative : name.head? ≠ some slash) (some_path : exportPath ≠ [])
    (bare : exportPath.getLast? ≠ some slash) : append exportPath name = exportPath ++ slash :: name := by
  rw [append, if_neg relative, if_neg (by tauto)]

end Paths

/-- A call that reads the clock as the stamp copies a dump to the path, or leaves all as it was. -/
def CopiedTo (exportPath : ByteString) (info : MinidumpInfo) (stamp path : ByteString) : Prop :=
  ∀ (call : Circumstances) (dump : ByteString) (world : World), call.timestamp = stamp →
    exportMinidump call exportPath dump info world = world ∨
      ∃ file ∈ world.pending, file.path = dump ∧
        exportMinidump call exportPath dump info world =
          { world with exported := place ⟨path, file.data, call.copyTime⟩ world.exported }

theorem copiedTo_append {exportPath : ByteString} {info : MinidumpInfo} {stamp : ByteString} {parts : Parts}
    (reads : Reads (exportName info stamp) parts) (some_path : exportPath ≠ []) (bare : exportPath.getLast? ≠ some slash) :
    CopiedTo exportPath info stamp (append exportPath (exportName info stamp)) := by
  intro call dump world clock
  have relative : (exportName info stamp).head? ≠ some slash :=
    fun absolute => (reads_plain reads).1.1 (List.mem_of_head? absolute)
  rw [append_bare relative some_path bare]
  unfold exportMinidump
  split
  next file _ found =>
    right
    exact ⟨file, List.mem_of_find?_eq_some found, by simpa using List.find?_some found, by rw [clock]⟩
  next => exact Or.inl rfl

/-- An exported dump is a child of the export directory with the pruner's extension. Its name is the three parts, which can be
read back from it in one way only, down to the second of the export. -/
theorem export_named (exportPath : ByteString) (info : MinidumpInfo) (now : Int) (fourDigits : 1000 ≤ yearOf now ∧ yearOf now ≤ 9999) :
    ∃ stamp path, timestamp now = some stamp ∧ exportDestination exportPath info now = some path ∧
      ChildOf exportPath (exportName info stamp) path ∧ extension path = ascii ".crashdump" ∧
        Reads (exportName info stamp) ⟨sanitized info, stamp, shortId info⟩ ∧
          (∀ parts, Reads (exportName info stamp) parts → parts = ⟨sanitized info, stamp, shortId info⟩) ∧
          (∀ other, timestamp other = some stamp → other = now) ∧
            (exportPath ≠ [] → exportPath.getLast? ≠ some slash → CopiedTo exportPath info stamp path) := by
  obtain ⟨stamp, told, length, clock⟩ := timestamp_four fourDigits
  have reads := reads_exportName info length clock
  have child := child_append reads exportPath
  obtain ⟨_, stem, some_stem, split⟩ := reads_plain reads
  refine ⟨stamp, _, told, ?_, child, extension_child child some_stem (by decide) split, reads,
    fun parts other => reads_unique other reads, fun other again => timestamp_injective told again, copiedTo_append reads⟩
  rw [exportDestination, told, Option.map_some]

/-- A name with a slash and an underscore, and a build ID of five digits. -/
def oddInfo : MinidumpInfo := ⟨ascii "a/b_c-1", ascii "SIGSEGV", 0, [⟨ascii "/usr/bin/app", 0x400000, 0x1000, ascii "0xAB-CD"⟩]⟩

theorem oddInfo_exported :
    exportDestination (ascii "/export") oddInfo 1776686400 = some (ascii "/export/a_b_c-1_20260420120000_0abcd000.crashdump") ∧
      extension (ascii "/export/a_b_c-1_20260420120000_0abcd000.crashdump") = ascii ".crashdump" := by
  obtain ⟨stamp, path, told, same, child, ext, _⟩ := export_named (ascii "/export") oddInfo 1776686400 (by decide +kernel)
  have here : exportDestination (ascii "/export") oddInfo 1776686400 =
      some (ascii "/export/a_b_c-1_20260420120000_0abcd000.crashdump") := by decide +kernel
  rw [here] at same
  cases same
  exact ⟨here, ext⟩

end Crashomon.Proofs.ExportPaths
