import Crashomon.Base.Bytes

/-! Bounds-checked access to one buffer. A program written with these raw
accesses stops with a fault at the first one that leaves the buffer, so that it
is memory safe on an input exactly when its run there ends with a value. -/

namespace Crashomon.Memory
open Bytes

structure Fault where
  offset : Nat
  length : Nat
  size : Nat
  deriving DecidableEq, Repr

abbrev Checked (α : Type) := Except Fault α

def load (buf : Buffer) (offset length : Nat) : Checked (List UInt8) :=
  if offset + length ≤ buf.length then .ok (slice buf offset length)
  else .error ⟨offset, length, buf.length⟩

def store (buf : Buffer) (offset : Nat) (bytes : List UInt8) : Checked Buffer :=
  if offset + bytes.length ≤ buf.length then .ok (overwrite buf offset bytes)
  else .error ⟨offset, bytes.length, buf.length⟩

def loadByte (buf : Buffer) (offset : Nat) : Checked UInt8 :=
  match buf[offset]? with
  | some byte => .ok byte
  | none => .error ⟨offset, 1, buf.length⟩

def Safe (run : Checked α) : Prop := ∃ value, run = .ok value

@[simp] theorem safe_ok (value : α) : Safe (.ok value : Checked α) := ⟨value, rfl⟩

@[simp] theorem not_safe_error (fault : Fault) : ¬ Safe (.error fault : Checked α) := by
  rintro ⟨value, impossible⟩
  cases impossible

@[simp] theorem ok_bind (value : α) (next : α → Checked β) : ((.ok value : Checked α) >>= next) = next value := rfl

theorem bind_ok {run : Checked α} {next : α → Checked β} {result : β} :
    (run >>= next) = .ok result ↔ ∃ value, run = .ok value ∧ next value = .ok result := by
  cases run with
  | ok value => simp
  | error fault => simp [bind, Except.bind]

theorem safe_bind {run : Checked α} {next : α → Checked β} :
    Safe (run >>= next) ↔ ∃ value, run = .ok value ∧ Safe (next value) := by
  constructor
  · rintro ⟨result, ended⟩
    obtain ⟨value, first, rest⟩ := bind_ok.mp ended
    exact ⟨value, first, result, rest⟩
  · rintro ⟨value, first, result, rest⟩
    exact ⟨result, bind_ok.mpr ⟨value, first, rest⟩⟩

theorem load_inside {buf : Buffer} {offset length : Nat} (inside : offset + length ≤ buf.length) :
    load buf offset length = .ok (slice buf offset length) :=
  if_pos inside

theorem inside_of_load {buf : Buffer} {offset length : Nat} {bytes : List UInt8} (read : load buf offset length = .ok bytes) :
    offset + length ≤ buf.length := by
  unfold load at read
  split at read
  next inside => exact inside
  next => cases read

theorem store_inside {buf : Buffer} {offset : Nat} {bytes : List UInt8}
    (inside : offset + bytes.length ≤ buf.length) : store buf offset bytes = .ok (overwrite buf offset bytes) :=
  if_pos inside

theorem safe_store {buf : Buffer} {offset : Nat} {bytes : List UInt8} :
    Safe (store buf offset bytes) ↔ offset + bytes.length ≤ buf.length := by
  unfold store
  split
  next inside => simpa using inside
  next outside => simpa using outside

theorem loadByte_inside {buf : Buffer} {offset : Nat} (inside : offset < buf.length) :
    loadByte buf offset = .ok buf[offset] := by
  simp only [loadByte, List.getElem?_eq_getElem inside]

theorem loadByte_ok {buf : Buffer} {offset : Nat} {byte : UInt8} :
    loadByte buf offset = .ok byte ↔ buf[offset]? = some byte := by
  unfold loadByte
  cases found : buf[offset]? with
  | some other => simp
  | none => simp

theorem safe_loadByte {buf : Buffer} {offset : Nat} : Safe (loadByte buf offset) ↔ offset < buf.length := by
  simp only [Safe, loadByte_ok, List.getElem?_eq_some_iff]
  constructor
  · rintro ⟨byte, inside, same⟩
    exact inside
  · intro inside
    exact ⟨buf[offset], inside, rfl⟩

end Crashomon.Memory
