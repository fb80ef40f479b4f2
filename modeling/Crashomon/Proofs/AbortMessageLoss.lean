import Crashomon.Daemon.Watcher
import Crashomon.Lib.Tags
import Crashomon.Proofs.AnnotationRoundTrip

/-! The abort message on its way from the client to the tombstone. Crashpad writes the
client's tags per module; the reader looks at the annotations of the process only. -/

namespace Crashomon.Proofs.AbortMessageLoss
open Bytes AnnotationAgreement AnnotationRoundTrip
open Daemon.MinidumpReader (readU32Le extractCrashpadAnnotations abortMessageKey kCrashpadInfoType)
open Daemon.Watcher (kNoAnnotations)
open Lib.Tags

/-- A MINIDUMP_UTF8_STRING. -/
structure RecordAt (buf : Buffer) (rva : Nat) (bytes : ByteString) : Prop where
  inside : rva + 4 + bytes.length ≤ buf.length
  length : word buf rva = bytes.length
  same : slice buf (rva + 4) bytes.length = bytes

/-- A MinidumpSimpleStringDictionary. -/
structure TagsAt (buf : Buffer) (rva : Nat) (tags : List (ByteString × ByteString)) : Prop where
  inside : rva + 4 + tags.length * 8 ≤ buf.length
  count : word buf rva = tags.length
  entries : ∀ i key value, tags[i]? = some (key, value) →
    RecordAt buf (word buf (rva + 4 + i * 8)) key ∧ RecordAt buf (word buf (rva + 4 + i * 8 + 4)) value

/-- A MinidumpModuleCrashpadInfoList; one of its modules, of version 1, has the tags. -/
structure ModuleListAt (buf : Buffer) (rva : Nat) (tags : List (ByteString × ByteString)) : Prop where
  inside : rva + 4 + word buf rva * 12 ≤ buf.length
  module : ∃ i < word buf rva, word buf (word buf (rva + 4 + i * 12 + 8)) = 1 ∧
    TagsAt buf (word buf (word buf (rva + 4 + i * 12 + 8) + 16)) tags

/-- The MinidumpCrashpadInfo at `rva`. An empty dictionary of the process may be left out. -/
structure InfoAt (buf : Buffer) (rva : Nat) (processTags moduleTags : List (ByteString × ByteString)) : Prop where
  inside : rva + 52 ≤ buf.length
  addressed : rva + 52 < 2 ^ 32
  version : word buf rva = 1
  process : processTags = [] ∧ word buf (rva + 40) = 0 ∨ TagsAt buf (word buf (rva + 40)) processTags
  modules : ModuleListAt buf (word buf (rva + 48)) moduleTags

/-- A dump of Crashpad for a process: its first CrashpadInfo stream has the process annotations of the
handler and, in its module list, the tags of the client. -/
structure CrashpadDump (buf : Buffer) (processTags moduleTags : List (ByteString × ByteString)) : Prop where
  header : 32 ≤ buf.length
  magic : slice buf 0 4 = Tools.Symbolizer.minidumpMagic
  stream : ∃ i < word buf 8, StreamEntry buf (word buf 12) i ∧ word buf 12 + i * 12 + 12 < 2 ^ 32 ∧
    InfoAt buf (word buf (word buf 12 + i * 12 + 8)) processTags moduleTags

variable {buf : Buffer} {moduleTags : List (ByteString × ByteString)}

/-- Whatever the tags of the modules are, the reader finds nothing. -/
theorem module_tags_ignored (dump : CrashpadDump buf kNoAnnotations moduleTags) :
    extractCrashpadAnnotations buf ⟨[], []⟩ = ⟨[], []⟩ := by
  obtain ⟨i, within, entry, addressed, info⟩ := dump.stream
  have header := dump.header
  have inside := info.inside
  have small := info.addressed
  have located : word buf 12 + i * 12 + 8 + 4 ≤ buf.length := entry.2.1
  rw [extract_dump header dump.magic, readU32Le_inside (by omega), readU32Le_inside (by omega),
    daemon_directory (fun j before _ => by omega) entry (Nat.zero_le i) (by omega), readU32Le_inside located]
  generalize word buf (word buf 12 + i * 12 + 8) = stream at info inside small
  dsimp only
  split
  next => rfl
  next =>
    split
    next => rfl
    next =>
      rw [u32_of_lt (by omega), u32_of_lt (by omega), readU32Le_inside (by omega), readU32Le_inside (by omega)]
      split
      next => rfl
      next present =>
        split
        next => rfl
        next =>
          rcases info.process with ⟨_, absent⟩ | empty
          · exact absurd (Or.inl absent) present
          · have begins := empty.inside
            rw [readU32Le_inside (by omega), empty.count]
            rfl

section Client
variable {Store : Type} (dictionary : SimpleStringDictionary Store) (demangle : ByteString → Option ByteString)

/-- The state of a process after the calls. -/
def after (calls : List Call) : Client Store := run dictionary demangle (initial dictionary) calls

/-- The tombstone has the abort message of the client exactly where that is empty. -/
theorem abort_message_reported_iff {calls : List Call} {message : ByteString}
    (set : (after dictionary demangle calls).abortMessage = some message)
    (dump : CrashpadDump buf kNoAnnotations (dictionary.entries (after dictionary demangle calls).annotations)) :
    (extractCrashpadAnnotations buf ⟨[], []⟩).abortMessage = message.take valueLimit ↔ message = [] := by
  rw [module_tags_ignored dump]
  constructor
  · intro lost
    cases message with
    | nil => rfl
    | cons first rest => cases lost
  · rintro rfl
    rfl

end Client

/-- A dictionary of 64 slots that cuts keys and values. -/
def slots : SimpleStringDictionary (List (ByteString × ByteString)) where
  empty := []
  setKeyValue store key value :=
    let kept := key.take valueLimit
    if kept ∈ store.map Prod.fst then
      store.map fun entry => if entry.1 = kept then (kept, value.take valueLimit) else entry
    else if store.length < 64 then store ++ [(kept, value.take valueLimit)]
    else store
  entries store := store

def boomCalls : List Call := [.doInit true, .setAbortMessage (some (ascii "boom"))]

/-- The dump of a process after `boomCalls`, with one module. -/
def boomDump : Buffer :=
  Tools.Symbolizer.minidumpMagic ++ le32 0xA793 ++ le32 1 ++ le32 32 ++ List.replicate 16 0 ++
    le32 kCrashpadInfoType ++ le32 52 ++ le32 44 ++
    le32 1 ++ List.replicate 32 0 ++ le32 0 ++ le32 0 ++ le32 16 ++ le32 96 ++
    le32 1 ++ le32 0 ++ le32 28 ++ le32 112 ++
    le32 1 ++ le32 0 ++ le32 0 ++ le32 12 ++ le32 140 ++ le32 0 ++ le32 0 ++
    le32 1 ++ le32 152 ++ le32 172 ++
    le32 13 ++ abortMessageKey ++ [0, 0, 0] ++ le32 4 ++ ascii "boom" ++ [0]

theorem boomDump_written :
    CrashpadDump boomDump kNoAnnotations (slots.entries (after slots some boomCalls).annotations) := by
  refine ⟨by decide +kernel, by decide +kernel, 0, by decide +kernel, by decide +kernel, by decide +kernel, ?_⟩
  refine ⟨by decide +kernel, by decide +kernel, by decide +kernel, Or.inl ⟨rfl, by decide +kernel⟩, by decide +kernel,
    0, by decide +kernel, by decide +kernel, by decide +kernel, by decide +kernel, ?_⟩
  intro i key value found
  match i with
  | 0 =>
    cases found
    constructor <;> constructor <;> decide +kernel
  | i + 1 => cases found

/-- The message of `boomCalls` is in the dump, and the tombstone does not show it. -/
theorem boom_lost :
    (after slots some boomCalls).abortMessage = some (ascii "boom") ∧
      ¬ (extractCrashpadAnnotations boomDump ⟨[], []⟩).abortMessage = (ascii "boom").take valueLimit :=
  ⟨rfl, fun reported => by
    have empty := (abort_message_reported_iff slots some rfl boomDump_written).mp reported
    cases empty⟩

/-- Not every abort message of a client is reported. -/
theorem abort_messages_not_reported :
    ¬ ∀ (calls : List Call) (message : ByteString) (buf : Buffer),
      (after slots some calls).abortMessage = some message →
      CrashpadDump buf kNoAnnotations (slots.entries (after slots some calls).annotations) →
      (extractCrashpadAnnotations buf ⟨[], []⟩).abortMessage = message.take valueLimit := by
  intro reported
  have shown := reported boomCalls (ascii "boom") boomDump rfl boomDump_written
  rw [module_tags_ignored boomDump_written] at shown
  cases shown

end Crashomon.Proofs.AbortMessageLoss
