import Crashomon.Base.CStrings
import Crashomon.Base.Loop
import Crashomon.Daemon.DiskManager

/-! EnqueueInotifyEvents on the bytes that `read` leaves, daemon/watcher.cpp. A read outside the
buffer faults. An offset in the buffer and a 32-bit length are far from wrapping a size_t. -/

namespace Crashomon.Daemon.InotifyBuffer
open Bytes Memory CStrings Loop DiskManager

/-- `sizeof(struct inotify_event)`: wd, mask, cookie and len, then the name. -/
def sizeofInotifyEvent : Nat := 16
def inMovedTo : Nat := 0x80

def loadWord (buf : Buffer) (off : Nat) : Checked Nat := do
  let bytes ← load buf off 4
  .ok (leValue bytes)

/-- The path of a minidump that has been moved into place, as the record's name has it. -/
def dumpPath (pendingDir : ByteString) (buf : Buffer) (name len : Nat) : Checked (Option ByteString) := do
  let nameLen ← strnlen buf name len
  if nameLen < 4 then .ok none
  else do
    let dump ← equals buf (name + nameLen - 4) (ascii ".dmp")
    if dump then do
      let bytes ← load buf name nameLen
      .ok (some (pendingDir ++ slash :: bytes))
    else .ok none

/-- The loop body: the offset of the next record and the path to push. -/
def visitEvent (pendingDir : ByteString) (buf : Buffer) (offset : Nat) : Checked (Nat × Option ByteString) := do
  let len ← loadWord buf (offset + 12)
  let mask ← loadWord buf (offset + 4)
  let next := offset + (sizeofInotifyEvent + len)
  if mask &&& inMovedTo = 0 then .ok (next, none)
  else if len = 0 then .ok (next, none)
  else do
    let path ← dumpPath pendingDir buf (offset + sizeofInotifyEvent) len
    .ok (next, path)

/-- The offset and the queue. -/
abbrev Cursor := Nat × List ByteString

def goOn (pending : List ByteString) : Checked (Nat × Option ByteString) → Turn Cursor (Checked (List ByteString))
  | .ok (next, path) => .again (next, pending ++ path.toList)
  | .error fault => .done (.error fault)

def eventTurn (pendingDir : ByteString) (buf : Buffer) (cursor : Cursor) : Turn Cursor (Checked (List ByteString)) :=
  if cursor.1 < buf.length then goOn cursor.2 (visitEvent pendingDir buf cursor.1) else .done (.ok cursor.2)

/-- The queue afterwards; `none` where the loop has not ended within so many turns. -/
def enqueueInotifyEvents (pendingDir : ByteString) (buf : Buffer) (pending : List ByteString) (turns : Nat) :
    Option (Checked (List ByteString)) :=
  run (eventTurn pendingDir buf) turns (0, pending)

end Crashomon.Daemon.InotifyBuffer
