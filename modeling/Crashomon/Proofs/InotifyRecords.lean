import Crashomon.Daemon.InotifyBuffer
import Crashomon.Daemon.Watcher

/-! The records of an inotify buffer, written and read back. -/

namespace Crashomon.Proofs.InotifyRecords
open Bytes Memory CStrings Loop
open Daemon.DiskManager (slash)
open Daemon.InotifyBuffer

/-- A record as the kernel writes it: a name with one NUL or more, or no bytes at all. -/
structure Record where
  wd : UInt32
  mask : UInt32
  cookie : UInt32
  name : ByteString
  nuls : Nat
  plain : 0 ∉ name
  terminated : nuls = 0 → name = []
  short : name.length + nuls < 2 ^ 32

namespace Record

def len (record : Record) : Nat := record.name.length + record.nuls

def header (record : Record) : Buffer :=
  le32 record.wd.toNat ++ (le32 record.mask.toNat ++ (le32 record.cookie.toNat ++ le32 record.len))

def encode (record : Record) : Buffer := record.header ++ (record.name ++ List.replicate record.nuls 0)

def Moved (record : Record) : Prop := record.mask.toNat &&& inMovedTo ≠ 0

instance (record : Record) : Decidable record.Moved := inferInstanceAs (Decidable (_ ≠ _))

/-- The path of a minidump moved into the directory. -/
def path (dir : ByteString) (record : Record) : Option ByteString :=
  if record.Moved ∧ ascii ".dmp" <:+ record.name then some (dir ++ slash :: record.name) else none

end Record

variable {dir : ByteString}

theorem loadWord_at (before : Buffer) {value : Nat} (small : value < 2 ^ 32) (rest : Buffer) :
    loadWord (before ++ (le32 value ++ rest)) before.length = .ok value := by
  have loaded := load_at before (le32 value) rest
  rw [length_le32] at loaded
  rw [loadWord, loaded, ok_bind, leValue_le32 small]

theorem suffix_iff {name : ByteString} : ascii ".dmp" <:+ name ↔ name.drop (name.length - 4) = ascii ".dmp" := by
  rw [List.suffix_iff_eq_drop, eq_comm]
  rfl

theorem dumpPath_record (record : Record) (some_bytes : record.nuls ≠ 0) (before rest : Buffer) :
    dumpPath dir (before ++ (record.name ++ (List.replicate record.nuls 0 ++ rest))) before.length record.len =
      .ok (if ascii ".dmp" <:+ record.name then some (dir ++ slash :: record.name) else none) := by
  rw [dumpPath, Record.len, strnlen_text record.plain, ok_bind]
  by_cases short : record.name.length < 4
  · have other : ¬ ascii ".dmp" <:+ record.name := fun suffix => absurd suffix.length_le (Nat.not_le_of_lt short)
    rw [if_pos short, if_neg other]
  · rw [if_neg short]
    obtain ⟨nuls, count⟩ := Nat.exists_eq_succ_of_ne_zero some_bytes
    -- The comparison begins four bytes before the first NUL.
    have compared := @equals_text (record.name.drop (record.name.length - 4)) (ascii ".dmp")
      (fun nul => record.plain (List.mem_of_mem_drop nul)) (by decide) (before ++ record.name.take (record.name.length - 4))
      (List.replicate nuls 0 ++ rest)
    have memory : before ++ record.name.take (record.name.length - 4) ++
        (record.name.drop (record.name.length - 4) ++ 0 :: (List.replicate nuls 0 ++ rest)) =
          before ++ (record.name ++ (List.replicate record.nuls 0 ++ rest)) := by
      rw [count, List.replicate_succ, List.append_assoc, ← List.append_assoc (record.name.take _), List.take_append_drop, List.cons_append]
    have place : (before ++ record.name.take (record.name.length - 4)).length = before.length + record.name.length - 4 := by
      rw [List.length_append, List.length_take]
      omega
    rw [memory, place] at compared
    rw [compared, ok_bind, load_at, ok_bind]
    simp only [suffix_iff, decide_eq_true_iff]
    split <;> rfl

theorem length_encode (record : Record) : record.encode.length = 16 + record.len := by
  simp only [Record.encode, Record.header, Record.len, List.length_append, length_le32, List.length_replicate]

theorem path_unmoved {record : Record} (unmoved : record.mask.toNat &&& inMovedTo = 0) : record.path dir = none :=
  if_neg fun dump => dump.1 unmoved

/-- The loop body at a record. -/
theorem visitEvent_record (record : Record) (before rest : Buffer) :
    visitEvent dir (before ++ (record.encode ++ rest)) before.length = .ok (before.length + (16 + record.len), record.path dir) := by
  have mask := loadWord_at (before ++ le32 record.wd.toNat) (UInt32.toNat_lt record.mask)
    (le32 record.cookie.toNat ++ (le32 record.len ++ (record.name ++ (List.replicate record.nuls 0 ++ rest))))
  have len := loadWord_at (before ++ (le32 record.wd.toNat ++ (le32 record.mask.toNat ++ le32 record.cookie.toNat)))
    (show record.len < 2 ^ 32 from record.short) (record.name ++ (List.replicate record.nuls 0 ++ rest))
  simp only [List.length_append, length_le32, List.append_assoc] at mask len
  simp only [visitEvent, Record.encode, Record.header, List.append_assoc, sizeofInotifyEvent]
  rw [len, ok_bind, mask, ok_bind]
  by_cases unmoved : record.mask.toNat &&& inMovedTo = 0
  · rw [if_pos unmoved, path_unmoved unmoved]
  rw [if_neg unmoved]
  by_cases empty : record.len = 0
  · have nameless : record.name = [] := record.terminated (Nat.eq_zero_of_add_eq_zero_left empty)
    have other : record.path dir = none := by
      refine if_neg fun dump => ?_
      rw [nameless] at dump
      exact absurd (List.suffix_nil.mp dump.2) (by decide)
    rw [if_pos empty, other]
  · have some_nul : record.nuls ≠ 0 := by
      intro none
      rw [Record.len, none, record.terminated none] at empty
      exact empty rfl
    have dump := @dumpPath_record dir record some_nul
      (before ++ (le32 record.wd.toNat ++ (le32 record.mask.toNat ++ (le32 record.cookie.toNat ++ le32 record.len)))) rest
    simp only [List.length_append, length_le32, List.append_assoc] at dump
    rw [if_neg empty, dump, ok_bind, Record.path]
    simp only [Record.Moved, ne_eq, unmoved, not_false_eq_true, true_and]

theorem eventTurn_record (record : Record) (before rest : Buffer) (pending : List ByteString) :
    eventTurn dir (before ++ (record.encode ++ rest)) (before.length, pending) =
      .again ((before ++ record.encode).length, pending ++ (record.path dir).toList) := by
  have inside : before.length < (before ++ (record.encode ++ rest)).length := by
    rw [List.length_append, List.length_append, length_encode]
    omega
  rw [eventTurn, if_pos inside, visitEvent_record, goOn, List.length_append, length_encode]

/-- From the end of what has been read on, the loop pushes the paths of the records that are left. -/
theorem run_records (records : List Record) (before : Buffer) (pending : List ByteString) :
    run (eventTurn dir (before ++ records.flatMap Record.encode)) (records.length + 1) (before.length, pending) =
      some (.ok (pending ++ records.filterMap (Record.path dir))) := by
  induction records generalizing before pending with
  | nil =>
    have ended : eventTurn dir (before ++ []) (before.length, pending) = .done (.ok pending) := by
      rw [eventTurn, List.append_nil, if_neg (Nat.lt_irrefl _)]
    rw [List.flatMap_nil, List.filterMap_nil, List.append_nil pending]
    exact run_done ended 0
  | cons record records ih =>
    have taken := @eventTurn_record dir record before (records.flatMap Record.encode) pending
    rw [List.flatMap_cons, List.length_cons, run_again taken, ← List.append_assoc, ih, List.append_assoc]
    cases path : record.path dir with
    | none => rw [List.filterMap_cons_none path, Option.toList_none, List.nil_append]
    | some moved => rw [List.filterMap_cons_some path, Option.toList_some, List.singleton_append]

/-- A buffer of records is read to its end, within it, and each minidump moved into the directory is queued once, in order. -/
theorem events_enqueued (dir : ByteString) (pending : List ByteString) (records : List Record) :
    enqueueInotifyEvents dir (records.flatMap Record.encode) pending (records.length + 1) =
      some (.ok (pending ++ records.filterMap (Record.path dir))) :=
  run_records records [] pending

/-- A dump whose name is padded to 16 bytes, and an event of the directory itself, which has no name. -/
def dumpAndSelf : List Record :=
  [⟨1, 0x80, 7, ascii "crash.dmp", 7, by decide, nofun, by decide⟩, ⟨1, 0x40000080, 0, [], 0, by decide, fun _ => rfl, by decide⟩]

theorem padded_dump_enqueued :
    enqueueInotifyEvents (ascii "pending") (dumpAndSelf.flatMap Record.encode) [] (dumpAndSelf.length + 1) =
        some (.ok ([] ++ dumpAndSelf.filterMap (Record.path (ascii "pending")))) ∧
      dumpAndSelf.filterMap (Record.path (ascii "pending")) = [ascii "pending/crash.dmp"] :=
  ⟨events_enqueued (ascii "pending") [] dumpAndSelf, by decide⟩

/-- What the watcher's queue takes of an event is the path of its record. -/
theorem enqueued_path (record : Record) (moved : record.Moved) (dir : ByteString) :
    Daemon.Watcher.enqueued dir ⟨record.name⟩ = record.path dir := by
  unfold Daemon.Watcher.enqueued Record.path
  simp only [moved, true_and, suffix_iff]
  by_cases dump : record.name.drop (record.name.length - 4) = ascii ".dmp"
  · have long : ¬ record.name.length < 4 := by
      intro short
      have length := congrArg List.length dump
      rw [List.length_drop] at length
      exact absurd length (by simp [ascii]; omega)
    rw [if_pos dump, if_neg (by tauto)]
  · rw [if_neg dump, if_pos (Or.inr dump)]

end Crashomon.Proofs.InotifyRecords
