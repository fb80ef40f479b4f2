import Crashomon.Proofs.SymbolStoring
import Crashomon.Web.StoreAccess
import Crashomon.Web.SymbolRoutes

/-! What readers of a symbol store see while calls write to it. A text that is written in its place
is seen half, and stays half when the call fails; whoever keeps clear of the writing sees whole texts. -/

namespace Crashomon.Proofs.StoreReads
open Web.StoreAccess SharedFiles Transition

variable {Name : Type}

/-- The file that a call is writing to. -/
def fileOf : Phase → Option Nat
  | .writing file _ => some file
  | _ => none

/-- The file that a reader is reading, and what it has read. -/
def sourceOf : Reading → Option (Nat × List UInt8)
  | .reading file got => some (file, got)
  | _ => none

theorem fileOf_eq_some {phase : Phase} {file : Nat} : fileOf phase = some file ↔ ∃ written, phase = .writing file written := by
  cases phase <;> simp [fileOf]

theorem sourceOf_eq_some {phase : Reading} {file : Nat} {got : List UInt8} : sourceOf phase = some (file, got) ↔ phase = .reading file got := by
  cases phase <;> simp [sourceOf]

/-- What was there in the beginning, or a text that a finished call has stored. -/
def Whole (prior : Name → Option (List UInt8)) (writers : List (Writer Name)) (name : Name) (seen : Option (List UInt8)) : Prop :=
  seen = prior name ∨ ∃ writer ∈ writers, writer.name = name ∧ writer.phase = .done ∧ seen = some writer.text

/-- The writer has the file open, with a part of its text still to be written. -/
def Busy (writer : Writer Name) (name : Name) (file : Nat) : Prop := writer.name = name ∧ fileOf writer.phase = some file

def Idle (writers : List (Writer Name)) (name : Name) (file : Nat) : Prop := ∀ writer ∈ writers, ¬ Busy writer name file

/-- Every reader that has come to the end has seen a whole text, or rightly none. -/
def ReadsWhole (prior : Name → Option (List UInt8)) (state : State Name) : Prop :=
  ∀ reader ∈ state.readers, ∀ seen, reader.phase = .saw seen → Whole prior state.writers reader.name seen

/-- A name under which no call is at work has a whole text: one that failed has left what it found. -/
def KeepsWhole (prior : Name → Option (List UInt8)) (state : State Name) : Prop :=
  ∀ name, (∀ file, Idle state.writers name file) → Whole prior state.writers name (state.files.view name)

/-- The targets are the texts that the files hold or are to hold. -/
structure Sound (prior : Name → Option (List UInt8)) (target : Name → Nat → List UInt8) (state : State Name) : Prop where
  fresh : ∀ {name file content}, state.files.contents name file = some content → file < state.files.next
  linked : ∀ {name file}, state.files.links name = some file → ∃ content, state.files.contents name file = some content
  absent : ∀ {name}, state.files.links name = none → prior name = none
  whole : ∀ {name file content}, state.files.contents name file = some content → Idle state.writers name file →
    content = target name file ∧ Whole prior state.writers name (some content)
  writing : ∀ {writer file written}, writer ∈ state.writers → writer.phase = .writing file written →
    written < writer.text.length ∧ state.files.contents writer.name file = some (writer.text.take written) ∧
      target writer.name file = writer.text
  alone : ∀ {first second file : Nat} {one other : Writer Name} {name : Name}, state.writers[first]? = some one →
    state.writers[second]? = some other → Busy one name file → Busy other name file → first = second
  reading : ∀ {reader file got}, reader ∈ state.readers → reader.phase = .reading file got →
    (∃ content, state.files.contents reader.name file = some content) ∧ got <+: target reader.name file
  saw : ∀ {reader seen}, reader ∈ state.readers → reader.phase = .saw seen → Whole prior state.writers reader.name seen

section Lists
variable {α : Type} {items : List α} {item old new : α} {index other : Nat}

theorem getElem?_set_cases (found : (items.set index new)[other]? = some item) :
    other = index ∧ item = new ∨ other ≠ index ∧ items[other]? = some item := by
  rw [List.getElem?_set] at found
  split at found
  next same =>
    split at found
    next => exact Or.inl ⟨same.symm, (Option.some.inj found).symm⟩
    next => cases found
  next differ => exact Or.inr ⟨fun same => differ same.symm, found⟩

theorem mem_set_new (held : items[index]? = some old) : new ∈ items.set index new := by
  obtain ⟨inside, _⟩ := List.getElem?_eq_some_iff.mp held
  exact List.mem_iff_getElem?.mpr ⟨index, List.getElem?_set_self inside⟩

theorem mem_set_other (held : items[index]? = some old) (member : item ∈ items) (differ : item ≠ old) : item ∈ items.set index new := by
  obtain ⟨other, found⟩ := List.mem_iff_getElem?.mp member
  refine List.mem_iff_getElem?.mpr ⟨other, ?_⟩
  rw [List.getElem?_set_ne, found]
  rintro rfl
  rw [held] at found
  exact differ (Option.some.inj found).symm

/-- What is read goes on as the text does. -/
theorem prefix_read {got content text : List α} (begun : got <+: text) (held : content <+: text) (count : Nat) :
    got ++ (content.drop got.length).take count <+: text := by
  rcases Nat.le_total content.length got.length with short | long
  · rw [List.drop_eq_nil_of_le short, List.take_nil, List.append_nil]
    exact begun
  · obtain ⟨rest, rfl⟩ := List.prefix_of_prefix_length_le begun held long
    rw [List.drop_left]
    exact ((List.prefix_append_right_inj got).mpr (List.take_prefix count rest)).trans held

theorem read_to_end {got content : List α} (begun : got <+: content) {more : Nat}
    (nothing : (content.drop got.length).take (more + 1) = []) : got = content := by
  apply begun.eq_of_length_le
  have ends : content.drop got.length = [] := by simpa using nothing
  exact List.drop_eq_nil_iff.mp ends

end Lists

section Changing
variable {prior : Name → Option (List UInt8)} {target : Name → Nat → List UInt8} {state : State Name} {index file : Nat}
  {name : Name} {writer : Writer Name} {phase : Phase}

/-- What finished calls have stored stays. -/
theorem Whole.set {writers : List (Writer Name)} {seen : Option (List UInt8)} (whole : Whole prior writers name seen)
    (held : writers[index]? = some writer) (undone : writer.phase ≠ .done) (new : Writer Name) :
    Whole prior (writers.set index new) name seen := by
  rcases whole with before | ⟨one, member, named, done, same⟩
  · exact Or.inl before
  · refine Or.inr ⟨one, mem_set_other held member ?_, named, done, same⟩
    rintro rfl
    exact undone done

/-- A file on which a call is not at work is idle if it is after the call has gone on. -/
theorem Idle.of_set {writers : List (Writer Name)} {new : Writer Name} (idle : Idle (writers.set index new) name file)
    (held : writers[index]? = some writer) (free : ¬ Busy writer name file) : Idle writers name file := by
  intro one member busy
  refine idle one (mem_set_other held member ?_) busy
  rintro rfl
  exact free busy

/-- A call that has no file open, and opens none. -/
theorem Sound.moved (sound : Sound prior target state) (held : state.writers[index]? = some writer)
    (before : fileOf writer.phase = none) (undone : writer.phase ≠ .done)
    (later : ∀ file written, phase ≠ .writing file written) :
    Sound prior target { state with writers := state.writers.set index { writer with phase } } := by
  have open_before {other : Nat} {one : Writer Name} {name : Name} {file : Nat}
      (found : (state.writers.set index { writer with phase })[other]? = some one) (busy : Busy one name file) :
      state.writers[other]? = some one := by
    rcases getElem?_set_cases found with ⟨_, rfl⟩ | ⟨_, kept⟩
    · obtain ⟨written, opened⟩ := fileOf_eq_some.mp busy.2
      exact absurd opened (later file written)
    · exact kept
  constructor
  · exact sound.fresh
  · exact sound.linked
  · exact sound.absent
  · intro name file content found idle
    obtain ⟨same, whole⟩ := sound.whole found (idle.of_set held fun busy => nomatch before.symm.trans busy.2)
    exact ⟨same, whole.set held undone _⟩
  · intro one file written member opened
    rcases List.mem_or_eq_of_mem_set member with kept | rfl
    · exact sound.writing kept opened
    · exact absurd opened (later file written)
  · intro first second file one other name found again busy also
    exact sound.alone (open_before found busy) (open_before again also) busy also
  · exact sound.reading
  · intro reader seen member ended
    exact (sound.saw member ended).set held undone _

/-- A call has written so much of its text to a file, on which it is alone and whose readers have
read nothing else. -/
theorem Sound.wrote [DecidableEq Name] {files : SharedFiles Name} {written : Nat} (sound : Sound prior target state)
    (held : state.writers[index]? = some writer) (undone : writer.phase ≠ .done)
    (own : ∀ other, fileOf writer.phase = some other → other = file)
    (alone : ∀ (other : Nat) (one : Writer Name), state.writers[other]? = some one → Busy one writer.name file → other = index)
    (readers : ∀ reader ∈ state.readers, reader.name = writer.name → ∀ got, reader.phase = .reading file got → got <+: writer.text)
    (contents : ∀ name number, files.contents name number =
      if name = writer.name ∧ number = file then some (writer.text.take written) else state.files.contents name number)
    (links : ∀ name, files.links name = state.files.links name ∨ name = writer.name ∧ files.links name = some file)
    (next : state.files.next ≤ files.next ∧ file < files.next) :
    Sound prior (fun name number => if name = writer.name ∧ number = file then writer.text else target name number)
      { state with files, writers := state.writers.set index { writer with phase := writer.after file written } } := by
  have opened_file {number amount : Nat} (opened : writer.after file written = .writing number amount) :
      number = file ∧ amount = written ∧ written < writer.text.length := by
    unfold Writer.after at opened
    split at opened
    next more =>
      cases opened
      exact ⟨rfl, rfl, more⟩
    next => cases opened
  have idle_before {name : Name} {number : Nat} (apart : ¬ (name = writer.name ∧ number = file))
      (idle : Idle (state.writers.set index { writer with phase := writer.after file written }) name number) :
      Idle state.writers name number :=
    idle.of_set held fun busy => apart ⟨busy.1.symm, own number busy.2⟩
  constructor
  · intro name number content found
    rw [contents] at found
    split at found
    next here =>
      rw [here.2]
      exact next.2
    next => exact Nat.lt_of_lt_of_le (sound.fresh found) next.1
  · intro name number linked
    rw [contents]
    split
    next => exact ⟨_, rfl⟩
    next apart =>
      rcases links name with same | ⟨named, new⟩
      · exact sound.linked (same.symm.trans linked)
      · cases new.symm.trans linked
        exact absurd ⟨named, rfl⟩ apart
  · intro name unlinked
    rcases links name with same | ⟨_, new⟩
    · exact sound.absent (same.symm.trans unlinked)
    · cases new.symm.trans unlinked
  · intro name number content found idle
    rw [contents] at found
    split at found
    next here =>
      obtain ⟨rfl, rfl⟩ := here
      have finished : ¬ written < writer.text.length := fun more => idle _ (mem_set_new held) ⟨rfl, fileOf_eq_some.mpr ⟨written, if_pos more⟩⟩
      have all : writer.text.take written = writer.text := List.take_of_length_le (Nat.le_of_not_lt finished)
      rw [all] at found
      cases found
      exact ⟨(if_pos ⟨rfl, rfl⟩).symm, Or.inr ⟨_, mem_set_new held, rfl, if_neg finished, rfl⟩⟩
    next apart =>
      obtain ⟨same, whole⟩ := sound.whole found (idle_before apart idle)
      exact ⟨same.trans (if_neg apart).symm, whole.set held undone _⟩
  · intro one number amount member opened
    obtain ⟨other, found⟩ := List.mem_iff_getElem?.mp member
    dsimp only
    rw [contents]
    rcases getElem?_set_cases found with ⟨_, rfl⟩ | ⟨differ, kept⟩
    · obtain ⟨rfl, rfl, more⟩ := opened_file opened
      exact ⟨more, if_pos ⟨rfl, rfl⟩, if_pos ⟨rfl, rfl⟩⟩
    · obtain ⟨more, content, aim⟩ := sound.writing (List.mem_iff_getElem?.mpr ⟨other, kept⟩) opened
      have apart : ¬ (one.name = writer.name ∧ number = file) := by
        rintro ⟨named, rfl⟩
        exact differ (alone other one kept ⟨named, fileOf_eq_some.mpr ⟨amount, opened⟩⟩)
      exact ⟨more, (if_neg apart).trans content, (if_neg apart).trans aim⟩
  · intro first second number one other name found again busy also
    have held_before {place : Nat} {one : Writer Name}
        (there : (state.writers.set index { writer with phase := writer.after file written })[place]? = some one)
        (working : Busy one name number) : (place = index ∧ name = writer.name ∧ number = file) ∨ state.writers[place]? = some one := by
      rcases getElem?_set_cases there with ⟨rfl, rfl⟩ | ⟨_, kept⟩
      · obtain ⟨amount, opened⟩ := fileOf_eq_some.mp working.2
        exact Or.inl ⟨rfl, working.1.symm, (opened_file opened).1⟩
      · exact Or.inr kept
    rcases held_before found busy with ⟨rfl, rfl, rfl⟩ | kept
    · rcases held_before again also with ⟨rfl, _, _⟩ | kept
      · rfl
      · exact (alone second other kept also).symm
    · rcases held_before again also with ⟨rfl, rfl, rfl⟩ | likewise
      · exact alone first one kept busy
      · exact sound.alone kept likewise busy also
  · intro reader number got member reads
    obtain ⟨there, begun⟩ := sound.reading member reads
    dsimp only
    rw [contents]
    by_cases here : reader.name = writer.name ∧ number = file
    · rw [if_pos here, if_pos here]
      obtain ⟨named, rfl⟩ := here
      exact ⟨⟨_, rfl⟩, readers reader member named got reads⟩
    · rw [if_neg here, if_neg here]
      exact ⟨there, begun⟩
  · intro reader seen member ended
    exact (sound.saw member ended).set held undone _

/-- A reader goes on. -/
theorem Sound.read (sound : Sound prior target state) (reader : Reader Name) {reached : Reading}
    (reading : ∀ file got, reached = .reading file got →
      (∃ content, state.files.contents reader.name file = some content) ∧ got <+: target reader.name file)
    (saw : ∀ seen, reached = .saw seen → Whole prior state.writers reader.name seen) :
    Sound prior target { state with readers := state.readers.set index { reader with phase := reached } } := by
  constructor
  · exact sound.fresh
  · exact sound.linked
  · exact sound.absent
  · exact sound.whole
  · exact sound.writing
  · exact sound.alone
  · intro one file got member reads
    rcases List.mem_or_eq_of_mem_set member with kept | rfl
    · exact sound.reading kept reads
    · exact reading file got reads
  · intro one seen member ended
    rcases List.mem_or_eq_of_mem_set member with kept | rfl
    · exact sound.saw kept ended
    · exact saw seen ended

theorem Sound.begun (sound : Sound prior target state) {content : List UInt8} (there : state.files.contents name file = some content) :
    content <+: target name file := by
  by_cases idle : Idle state.writers name file
  · exact (sound.whole there idle).1 ▸ List.prefix_refl _
  · unfold Idle at idle
    push Not at idle
    obtain ⟨writer, member, rfl, busy⟩ := idle
    obtain ⟨written, opened⟩ := fileOf_eq_some.mp busy
    obtain ⟨_, held, aim⟩ := sound.writing member opened
    cases there.symm.trans held
    rw [aim]
    exact List.take_prefix written writer.text

/-- Nobody is at work on a file that is not there yet. -/
theorem Sound.alone_fresh (sound : Sound prior target state) {one : Writer Name} (member : one ∈ state.writers) :
    ¬ Busy one name state.files.next := by
  rintro ⟨rfl, busy⟩
  obtain ⟨written, opened⟩ := fileOf_eq_some.mp busy
  exact absurd (sound.fresh (sound.writing member opened).2.1) (Nat.lt_irrefl _)

/-- A call has made a new file, with so much of its text. -/
theorem Sound.created [DecidableEq Name] (sound : Sound prior target state) (held : state.writers[index]? = some writer)
    (placing : writer.phase = .made) (written : Nat) :
    ∃ target, Sound prior target { state with
      files := state.files.create writer.name (writer.text.take written)
      writers := state.writers.set index { writer with phase := writer.after state.files.next written } } := by
  refine ⟨_, sound.wrote held ?_ ?_ ?_ ?_ (fun _ _ => contents_create) ?_ ?_⟩
  · rw [placing]
    exact nofun
  · rw [placing]
    exact nofun
  · intro other one found busy
    exact absurd busy (sound.alone_fresh (List.mem_iff_getElem?.mpr ⟨other, found⟩))
  · intro reader member _ got reads
    obtain ⟨content, there⟩ := (sound.reading member reads).1
    exact absurd (sound.fresh there) (Nat.lt_irrefl _)
  · intro name
    rw [links_create]
    by_cases same : name = writer.name
    · exact Or.inr ⟨same, if_pos same⟩
    · exact Or.inl (if_neg same)
  · exact ⟨Nat.le_succ _, Nat.lt_succ_self _⟩

end Changing

section Steps
variable {prior : Name → Option (List UInt8)} {target : Name → Nat → List UInt8} {state after : State Name} {index : Nat}

/-- A call truncates no file that another is at work on, and none of which a reader has read what
is not in the new text too. It fails before it has the file open. -/
def WriterClear (state : State Name) (writer : Writer Name) : WriterMove → Prop
  | .place => writer.method = .truncate → ∀ file ∈ state.files.links writer.name, Idle state.writers writer.name file ∧
      ∀ reader ∈ state.readers, reader.name = writer.name → ∀ source ∈ sourceOf reader.phase, source.1 = file → source.2 <+: writer.text
  | .fail => fileOf writer.phase = none
  | _ => True

/-- A reader comes to the end of no file that a call is at work on. -/
def ReaderClear (state : State Name) (reader : Reader Name) : ReaderMove → Prop
  | .read more => ∀ source ∈ sourceOf reader.phase, reader.chunk state.files source.1 source.2 more = [] →
      Idle state.writers reader.name source.1
  | _ => True

def Undisturbed (state : State Name) : Action → Prop
  | .writer index move => ∀ writer ∈ state.writers[index]?, WriterClear state writer move
  | .reader index move => ∀ reader ∈ state.readers[index]?, ReaderClear state reader move

theorem sound_reader (sound : Sound prior target state) {reader : Reader Name} (held : state.readers[index]? = some reader)
    {move : ReaderMove} (clear : ReaderClear state reader move) {reached : Reading}
    (stepped : reader.step state.files move = some reached) :
    Sound prior target { state with readers := state.readers.set index { reader with phase := reached } } := by
  have member : reader ∈ state.readers := List.mem_iff_getElem?.mpr ⟨index, held⟩
  have nothing (unlinked : state.files.links reader.name = none) : Whole prior state.writers reader.name none :=
    Or.inl (sound.absent unlinked).symm
  cases move with
  | look =>
    obtain ⟨_, same⟩ := Option.ite_none_right_eq_some.mp stepped
    cases same
    refine sound.read reader ?_ ?_
    · intro file got reads
      split at reads <;> cases reads
    · intro seen ended
      split at ended
      next unlinked =>
        cases ended
        exact nothing unlinked
      next => cases ended
  | openFile =>
    obtain ⟨_, same⟩ := Option.ite_none_right_eq_some.mp stepped
    cases linked : state.files.links reader.name with
    | none =>
      rw [linked] at same
      cases same
      refine sound.read reader nofun fun seen ended => ?_
      cases ended
      exact nothing linked
    | some file =>
      rw [linked] at same
      cases same
      refine sound.read reader (fun file got reads => ?_) nofun
      cases reads
      exact ⟨sound.linked linked, List.nil_prefix⟩
  | read more =>
    rw [Reader.step] at stepped
    split at stepped
    next file got reading =>
      cases stepped
      obtain ⟨⟨content, there⟩, begun⟩ := sound.reading member reading
      have chunk : reader.chunk state.files file got more = (content.drop got.length).take (more + 1) := by
        rw [Reader.chunk, there, Option.getD_some]
      refine sound.read reader ?_ ?_
      · intro number read reads
        split at reads
        next => cases reads
        next some =>
          cases reads
          refine ⟨⟨content, there⟩, ?_⟩
          rw [chunk]
          exact prefix_read begun (sound.begun there) (more + 1)
      · intro seen ended
        split at ended
        next none =>
          cases ended
          obtain ⟨same, whole⟩ := sound.whole there (clear _ (sourceOf_eq_some.mpr reading) none)
          rw [← same] at begun
          rw [chunk] at none
          rw [read_to_end begun none]
          exact whole
        next => cases ended
    next => cases stepped

variable [DecidableEq Name]

theorem Sound.placed (sound : Sound prior target state) {writer : Writer Name} (held : state.writers[index]? = some writer)
    (placing : writer.phase = .made) (clear : WriterClear state writer .place) :
    ∃ target, Sound prior target { state with
      files := (writer.place state.files).1, writers := state.writers.set index { writer with phase := (writer.place state.files).2 } } := by
  unfold Writer.place
  cases method : writer.method with
  | truncate =>
    dsimp only
    unfold openForWriting
    cases linked : state.files.links writer.name with
    | none => exact sound.created held placing 0
    | some file =>
      obtain ⟨idle, readers⟩ := clear method file linked
      obtain ⟨content, there⟩ := sound.linked linked
      refine ⟨_, sound.wrote held ?_ ?_ ?_ ?_ (fun _ _ => contents_put) (fun _ => Or.inl rfl) ⟨Nat.le_refl _, sound.fresh there⟩⟩
      · rw [placing]
        exact nofun
      · rw [placing]
        exact nofun
      · intro other one found busy
        exact absurd busy (idle one (List.mem_iff_getElem?.mpr ⟨other, found⟩))
      · intro reader member named got reads
        exact readers reader member named _ (sourceOf_eq_some.mpr reads) rfl
  | rename =>
    have all := sound.created held placing writer.text.length
    have done : writer.after state.files.next writer.text.length = .done := if_neg (Nat.lt_irrefl _)
    rw [List.take_length, done] at all
    exact all

theorem Sound.written (sound : Sound prior target state) {writer : Writer Name} {file written : Nat}
    (held : state.writers[index]? = some writer) (opened : writer.phase = .writing file written) (more : Nat) :
    ∃ target, Sound prior target { state with
      files := state.files.writeAt writer.name file written (writer.chunk written more)
      writers := state.writers.set index { writer with phase := writer.after file (written + (writer.chunk written more).length) } } := by
  have member : writer ∈ state.writers := List.mem_iff_getElem?.mpr ⟨index, held⟩
  obtain ⟨short, there, aim⟩ := sound.writing member opened
  have longer : splice (writer.text.take written) written (writer.chunk written more) =
      writer.text.take (written + (writer.chunk written more).length) := by
    have ends : written = (writer.text.take written).length := by
      rw [List.length_take, Nat.min_eq_left (Nat.le_of_lt short)]
    rw [splice_end ends, List.take_add, Writer.chunk, List.length_take]
    exact congrArg _ List.take_eq_take_min
  refine ⟨_, sound.wrote held ?_ ?_ ?_ ?_ ?_ (fun _ => Or.inl rfl) ⟨Nat.le_refl _, sound.fresh there⟩⟩
  · rw [opened]
    exact nofun
  · intro other again
    rw [opened] at again
    exact (Option.some.inj again).symm
  · intro other one found busy
    exact sound.alone found held busy ⟨rfl, fileOf_eq_some.mpr ⟨written, opened⟩⟩
  · intro reader reads named got reading
    have begun := (sound.reading reads reading).2
    rw [named, aim] at begun
    exact begun
  · intro name number
    rw [writeAt, contents_put, there, Option.getD_some, longer]

theorem sound_writer (sound : Sound prior target state) {writer : Writer Name} (held : state.writers[index]? = some writer)
    {move : WriterMove} (clear : WriterClear state writer move) {files : SharedFiles Name} {phase : Phase}
    (stepped : writer.step state.files move = some (files, phase)) :
    ∃ target, Sound prior target { state with files, writers := state.writers.set index { writer with phase } } := by
  cases move with
  | mkdir =>
    obtain ⟨ready, same⟩ := Option.ite_none_right_eq_some.mp stepped
    cases same
    refine ⟨target, sound.moved held ?_ ?_ nofun⟩
    · rw [ready]
      rfl
    · rw [ready]
      exact nofun
  | place =>
    obtain ⟨made, same⟩ := Option.ite_none_right_eq_some.mp stepped
    have placed := sound.placed held made clear
    rw [Option.some.inj same] at placed
    exact placed
  | write more =>
    rw [Writer.step] at stepped
    split at stepped
    next file written opened =>
      cases stepped
      exact sound.written held opened more
    next => cases stepped
  | fail =>
    obtain ⟨running, same⟩ := Option.ite_none_left_eq_some.mp stepped
    cases same
    exact ⟨target, sound.moved held clear (fun done => running (Or.inl done)) nofun⟩

theorem sound_step (sound : Sound prior target state) {action : Action} (clear : Undisturbed state action)
    (stepped : state.step action = some after) : ∃ target, Sound prior target after := by
  cases action with
  | writer index move =>
    obtain ⟨writer, held, moved⟩ := Option.bind_eq_some_iff.mp stepped
    obtain ⟨⟨files, phase⟩, went, rfl⟩ := Option.map_eq_some_iff.mp moved
    exact sound_writer sound held (clear writer held) went
  | reader index move =>
    obtain ⟨reader, held, moved⟩ := Option.bind_eq_some_iff.mp stepped
    obtain ⟨reached, went, rfl⟩ := Option.map_eq_some_iff.mp moved
    exact ⟨target, sound_reader sound held (clear reader held) went⟩

omit [DecidableEq Name] in
theorem sound_begin (prior : Name → Option (List UInt8)) (jobs : List (Job Name)) (names : List Name) :
    Sound prior (fun name _ => (prior name).getD []) (State.begin prior jobs names) := by
  have ready {writer : Writer Name} (member : writer ∈ (State.begin prior jobs names).writers) : writer.phase = .ready := by
    obtain ⟨job, _, rfl⟩ := List.mem_map.mp member
    rfl
  have waiting {reader : Reader Name} (member : reader ∈ (State.begin prior jobs names).readers) : reader.phase = .ready := by
    obtain ⟨name, _, rfl⟩ := List.mem_map.mp member
    rfl
  have first {name : Name} {file : Nat} {content : List UInt8} (found : (holding prior).contents name file = some content) :
      file = 0 ∧ prior name = some content := Option.ite_none_right_eq_some.mp found
  constructor
  · intro name file content found
    rw [(first found).1]
    exact Nat.one_pos
  · intro name file linked
    obtain ⟨content, held, rfl⟩ := Option.map_eq_some_iff.mp linked
    exact ⟨content, held⟩
  · intro name unlinked
    exact Option.map_eq_none_iff.mp unlinked
  · intro name file content found _
    obtain ⟨_, held⟩ := first found
    exact ⟨by rw [held, Option.getD_some], Or.inl held.symm⟩
  · intro writer file written member opened
    cases (ready member).symm.trans opened
  · intro first second file one other name found _ busy _
    have none := ready (List.mem_iff_getElem?.mpr ⟨first, found⟩)
    rw [Busy, none] at busy
    cases busy.2
  · intro reader file got member reads
    cases (waiting member).symm.trans reads
  · intro reader seen member ended
    cases (waiting member).symm.trans ended

omit [DecidableEq Name] in
theorem Sound.keepsWhole (sound : Sound prior target state) : KeepsWhole prior state := by
  intro name idle
  unfold view
  cases linked : state.files.links name with
  | none => exact Or.inl (sound.absent linked).symm
  | some file =>
    obtain ⟨content, there⟩ := sound.linked linked
    rw [Option.bind_some, there]
    exact (sound.whole there (idle file)).2

/-- Only calls that move their file in, none of which has a file open. -/
def Renaming (writers : List (Writer Name)) : Prop := ∀ writer ∈ writers, writer.method = .rename ∧ fileOf writer.phase = none

omit [DecidableEq Name] in
theorem undisturbed_of_renaming (moves : Renaming state.writers) (action : Action) : Undisturbed state action := by
  have idle (name : Name) (file : Nat) : Idle state.writers name file :=
    fun writer member busy => nomatch (moves writer member).2.symm.trans busy.2
  cases action with
  | writer index move =>
    intro writer held
    obtain ⟨method, none⟩ := moves writer (List.mem_iff_getElem?.mpr ⟨index, held⟩)
    cases move with
    | mkdir => trivial
    | place =>
      intro truncates
      cases method.symm.trans truncates
    | write more => trivial
    | fail => exact none
  | reader index move =>
    intro reader held
    cases move with
    | look => trivial
    | openFile => trivial
    | read more => exact fun source _ _ => idle reader.name source.1

theorem renaming_step (moves : Renaming state.writers) {action : Action} (stepped : state.step action = some after) :
    Renaming after.writers := by
  cases action with
  | reader index move =>
    obtain ⟨reader, _, moved⟩ := Option.bind_eq_some_iff.mp stepped
    obtain ⟨_, _, rfl⟩ := Option.map_eq_some_iff.mp moved
    exact moves
  | writer index move =>
    obtain ⟨writer, held, moved⟩ := Option.bind_eq_some_iff.mp stepped
    obtain ⟨⟨files, phase⟩, went, rfl⟩ := Option.map_eq_some_iff.mp moved
    obtain ⟨method, none⟩ := moves writer (List.mem_iff_getElem?.mpr ⟨index, held⟩)
    have closed : fileOf phase = Option.none := by
      cases move with
      | mkdir =>
        obtain ⟨_, same⟩ := Option.ite_none_right_eq_some.mp went
        cases same
        rfl
      | place =>
        obtain ⟨_, same⟩ := Option.ite_none_right_eq_some.mp went
        have placed : writer.place state.files = (state.files.create writer.name writer.text, .done) := by
          rw [Writer.place, method]
        cases placed.symm.trans (Option.some.inj same)
        rfl
      | write more =>
        rw [Writer.step] at went
        split at went
        next file written opened =>
          rw [opened] at none
          cases none
        next => cases went
      | fail =>
        obtain ⟨_, same⟩ := Option.ite_none_left_eq_some.mp went
        cases same
        rfl
    intro one member
    rcases List.mem_or_eq_of_mem_set member with kept | rfl
    · exact moves one kept
    · exact ⟨method, closed⟩

/-- Where files are only moved in, nobody is ever disturbed. -/
theorem renaming_whole (prior : Name → Option (List UInt8)) (jobs : List (Job Name)) (names : List Name) {actions : List Action}
    {last : State Name} (moving : ∀ job ∈ jobs, job.method = .rename)
    (ran : run State.step (State.begin prior jobs names) actions = some last) : ReadsWhole prior last ∧ KeepsWhole prior last := by
  have kept {before after : State Name} {action : Action} (held : (∃ target, Sound prior target before) ∧ Renaming before.writers)
      (stepped : before.step action = some after) : (∃ target, Sound prior target after) ∧ Renaming after.writers := by
    obtain ⟨⟨target, sound⟩, moves⟩ := held
    exact ⟨sound_step sound (undisturbed_of_renaming moves action) stepped, renaming_step moves stepped⟩
  have start : Renaming (State.begin prior jobs names).writers := by
    intro writer member
    obtain ⟨job, called, rfl⟩ := List.mem_map.mp member
    exact ⟨moving job called, rfl⟩
  obtain ⟨⟨target, sound⟩, _⟩ := run_invariant kept ⟨⟨_, sound_begin prior jobs names⟩, start⟩ ran
  exact ⟨fun reader member seen ended => sound.saw member ended, sound.keepsWhole⟩

/-- In a run in which nobody is disturbed, whole texts are all that readers see and all that calls leave. -/
theorem undisturbed_whole (prior : Name → Option (List UInt8)) (jobs : List (Job Name)) (names : List Name) {actions : List Action}
    {last : State Name} (clear : Throughout State.step Undisturbed (State.begin prior jobs names) actions)
    (ran : run State.step (State.begin prior jobs names) actions = some last) : ReadsWhole prior last ∧ KeepsWhole prior last := by
  have kept {before after : State Name} {action : Action} (held : ∃ target, Sound prior target before)
      (undisturbed : Undisturbed before action) (stepped : before.step action = some after) : ∃ target, Sound prior target after := by
    obtain ⟨target, sound⟩ := held
    exact sound_step sound undisturbed stepped
  obtain ⟨target, sound⟩ := run_keeps kept ⟨_, sound_begin prior jobs names⟩ clear ran
  exact ⟨fun reader member seen ended => sound.saw member ended, sound.keepsWhole⟩

end Steps

section Alone
variable [DecidableEq Name] {state : State Name} {index : Nat}

theorem run_writer {writer : Writer Name} {move : WriterMove} {files : SharedFiles Name} {phase : Phase} {actions : List Action}
    {last : State Name} (held : state.writers[index]? = some writer) (went : writer.step state.files move = some (files, phase))
    (later : run State.step { state with files, writers := state.writers.set index { writer with phase } } actions = some last) :
    run State.step state (.writer index move :: actions) = some last := by
  rw [run, State.step, held, Option.bind_some, went, Option.map_some, Option.bind_some]
  exact later

theorem run_reader {reader : Reader Name} {move : ReaderMove} {reached : Reading} {actions : List Action} {last : State Name}
    (held : state.readers[index]? = some reader) (went : reader.step state.files move = some reached)
    (later : run State.step { state with readers := state.readers.set index { reader with phase := reached } } actions = some last) :
    run State.step state (.reader index move :: actions) = some last := by
  rw [run, State.step, held, Option.bind_some, went, Option.map_some, Option.bind_some]
  exact later

theorem getElem?_set_held {α : Type} {items : List α} {old : α} (held : items[index]? = some old) (new : α) :
    (items.set index new)[index]? = some new := by
  obtain ⟨inside, _⟩ := List.getElem?_eq_some_iff.mp held
  exact List.getElem?_set_self inside

/-- A call that nobody comes in between puts its text under its name and changes nothing else. -/
theorem run_alone {job : Job Name} (truncates : job.method = .truncate) (nonempty : job.text ≠ [])
    (held : state.writers[index]? = some ⟨job, .ready⟩) :
    ∃ last, run State.step state [.writer index .mkdir, .writer index .place, .writer index (.write job.text.length)] = some last ∧
      ∀ name, last.files.view name = if name = job.name then some job.text else state.files.view name := by
  have long : 0 < job.text.length := List.length_pos_of_ne_nil nonempty
  obtain ⟨file, opened, placed, linked, empty, others⟩ : ∃ file opened, state.files.openForWriting job.name = (file, opened) ∧
      opened.links job.name = some file ∧ opened.contents job.name file = some [] ∧
      ∀ name, name ≠ job.name → opened.view name = state.files.view name := by
    unfold openForWriting
    cases links : state.files.links job.name with
    | none => exact ⟨_, _, rfl, if_pos rfl, if_pos ⟨rfl, rfl⟩, fun name other => view_create.trans (if_neg other)⟩
    | some file => exact ⟨_, _, rfl, links, if_pos ⟨rfl, rfl⟩, fun name other => (view_put links).trans (if_neg other)⟩
  have made : Writer.step ⟨job, .ready⟩ state.files .mkdir = some (state.files, .made) := by rw [Writer.step, if_pos rfl]
  have begun : Writer.step ⟨job, .made⟩ state.files .place = some (opened, .writing file 0) := by
    rw [Writer.step, if_pos rfl, Writer.place]
    dsimp only
    rw [truncates]
    dsimp only
    rw [placed, Writer.after]
    exact congrArg some (congrArg _ (if_pos long))
  have whole : Writer.chunk ⟨job, .writing file 0⟩ 0 job.text.length = job.text := by
    rw [Writer.chunk, List.drop_zero]
    exact List.take_of_length_le (Nat.le_succ _)
  have ended : Writer.step ⟨job, .writing file 0⟩ opened (.write job.text.length) = some (opened.put job.name file job.text, .done) := by
    rw [Writer.step]
    dsimp only
    have spliced : splice [] 0 job.text = job.text := splice_end rfl
    rw [whole, writeAt, empty, Option.getD_some, spliced, Nat.zero_add, Writer.after, if_neg (Nat.lt_irrefl _)]
  have third := getElem?_set_held (getElem?_set_held held ⟨job, .made⟩) ⟨job, .writing file 0⟩
  refine ⟨_, run_writer held made (run_writer (getElem?_set_held held _) begun (run_writer third ended rfl)), fun name => ?_⟩
  rw [view_put linked]
  split
  next => rfl
  next other => exact others name other

/-- The reader comes to a phase, when it alone goes on. -/
def Reaches (state : State Name) (index : Nat) (name : Name) (reached : Reading) : Prop :=
  ∃ actions last, run State.step state actions = some last ∧ last.readers[index]? = some ⟨name, reached⟩

theorem reaches_now {name : Name} {phase : Reading} (held : state.readers[index]? = some ⟨name, phase⟩) : Reaches state index name phase :=
  ⟨[], state, rfl, held⟩

theorem reaches_step {name : Name} {phase next reached : Reading} {move : ReaderMove} (held : state.readers[index]? = some ⟨name, phase⟩)
    (went : Reader.step ⟨name, phase⟩ state.files move = some next)
    (later : ∀ after : State Name, after.files = state.files → after.readers[index]? = some ⟨name, next⟩ → Reaches after index name reached) :
    Reaches state index name reached := by
  obtain ⟨actions, last, ran, ends⟩ := later { state with readers := state.readers.set index ⟨name, next⟩ } rfl (getElem?_set_held held _)
  exact ⟨.reader index move :: actions, last, run_reader held went ran, ends⟩

omit [DecidableEq Name] in
/-- A read of as many bytes as there are. -/
theorem chunk_all {name : Name} {file : Nat} {content : List UInt8} {files : SharedFiles Name}
    (there : files.contents name file = some content) (phase : Reading) (got : List UInt8) :
    Reader.chunk ⟨name, phase⟩ files file got content.length = content.drop got.length := by
  rw [Reader.chunk, there, Option.getD_some]
  apply List.take_of_length_le
  rw [List.length_drop]
  omega

theorem reaches_end {name : Name} {file : Nat} {content : List UInt8} (there : state.files.contents name file = some content)
    (held : state.readers[index]? = some ⟨name, .reading file content⟩) : Reaches state index name (.saw (some content)) := by
  apply reaches_step held _ fun after _ => reaches_now
  · exact .read content.length
  · rw [Reader.step]
    dsimp only
    rw [chunk_all there, List.drop_length, if_pos rfl]

/-- A reader that nobody comes in between sees what is under the name. -/
theorem reader_alone {name : Name} (held : state.readers[index]? = some ⟨name, .ready⟩)
    (linked : ∀ file, state.files.links name = some file → ∃ content, state.files.contents name file = some content) :
    Reaches state index name (.saw (state.files.view name)) := by
  unfold view
  cases links : state.files.links name with
  | none =>
    have looked : Reader.step ⟨name, .ready⟩ state.files .look = some (.saw none) := by
      rw [Reader.step, if_pos rfl, if_pos links]
    exact reaches_step held looked fun after _ => reaches_now
  | some file =>
    obtain ⟨content, there⟩ := linked file links
    rw [Option.bind_some, there]
    have looked : Reader.step ⟨name, .ready⟩ state.files .look = some .found := by
      rw [Reader.step, if_pos rfl, if_neg (by rw [links]; exact nofun)]
    have opened : Reader.step ⟨name, .found⟩ state.files .openFile = some (.reading file []) := by
      rw [Reader.step, if_pos rfl, links, Option.elim_some]
    refine reaches_step held looked fun second same held => reaches_step held (same ▸ opened) fun third again held => ?_
    have kept : third.files.contents name file = some content := by rw [again, same, there]
    by_cases empty : content = []
    · rw [empty] at kept ⊢
      exact reaches_end kept held
    · have went : Reader.step ⟨name, .reading file []⟩ third.files (.read content.length) = some (.reading file content) := by
        rw [Reader.step]
        dsimp only
        rw [chunk_all kept, List.length_nil, List.drop_zero, if_neg empty, List.nil_append]
      exact reaches_step held went fun last files => reaches_end (files ▸ kept)

end Alone

section Code
open Web.SymbolStore Web.SymbolRoutes SymbolStoring SymbolPaths FileTree
variable {disk : Disk} {cwd root : Location} {storePath symText module buildId : Text} {jobs : List (Job Location)} {names : List Location}
  {index : Nat}

/-- What the files of a disk hold. -/
def contentAt (disk : Disk) (location : Location) : Option (List UInt8) := (disk.fileAt location).map Prod.fst

theorem contentAt_congr {other : Disk} {location : Location} (same : other.node location = disk.node location) :
    contentAt other location = contentAt disk location := by
  unfold contentAt Disk.fileAt
  rw [same]

theorem contentAt_directory {location : Location} (room : disk.node location = none ∨ disk.node location = some .directory) :
    contentAt disk location = none := by
  unfold contentAt Disk.fileAt
  rcases room with absent | present
  · rw [absent]
    rfl
  · rw [present]
    rfl

theorem encodeUtf8_ne_nil {text : Text} (nonempty : text ≠ []) : Python.encodeUtf8 text ≠ [] := by
  obtain ⟨character, rest, rfl⟩ := List.exists_cons_of_ne_nil nonempty
  obtain ⟨lead, tail, encoded, _⟩ := Python.decodeChar_utf8EncodeChar character []
  rw [Python.encodeUtf8, List.flatMap_cons, encoded]
  exact List.cons_ne_nil _ _

/-- With nobody in between, the steps of a call come to what `add_sym_text` does to the disk. -/
theorem addSymText_alone (parsed : parseModuleLine symText = .ok (module, buildId)) (room : Room disk root module buildId)
    (clean : ¬ HasNull (PurePath.parse storePath).tail)
    (walked : disk.tree.walk ((PurePath.parse storePath).startFrom cwd) (PurePath.parse storePath).tail = .ok root) (now : Nat)
    {job : Job Location} (called : jobOf (addSymText disk.tree cwd storePath symText) = some job) (held : jobs[index]? = some job) :
    ∃ last, run State.step (State.begin (contentAt disk) jobs names)
        [.writer index .mkdir, .writer index .place, .writer index (.write job.text.length)] = some last ∧
      ∀ location, last.files.view location = contentAt ((addSymText disk.tree cwd storePath symText).onto disk now) location := by
  have nonempty : symText ≠ [] := by
    rintro rfl
    cases parsed
  have outcome := addSymText_open parsed room.properModule room.properId room.open clean walked
  have ready : (State.begin (contentAt disk) jobs names).writers[index]? = some ⟨job, .ready⟩ := by
    rw [State.begin, List.getElem?_map, held, Option.map_some]
  rw [outcome] at called ⊢
  cases called
  obtain ⟨last, ran, seen⟩ := run_alone rfl (encodeUtf8_ne_nil nonempty) ready
  refine ⟨last, ran, fun location => ?_⟩
  have node := node_onto room (.ok (symFileOf storePath module buildId)) symText now location
  rw [seen]
  dsimp only at node ⊢
  by_cases stored : location = root ++ [module] ++ [buildId] ++ [symName module]
  · rw [if_pos stored] at node ⊢
    unfold contentAt Disk.fileAt
    rw [node]
    rfl
  · rw [if_neg stored] at node ⊢
    rw [State.begin, view_holding]
    split at node
    next made =>
      rw [contentAt_directory (Or.inr node)]
      rcases made with rfl | rfl
      · exact contentAt_directory room.moduleDir
      · exact contentAt_directory room.buildDir
    next => exact (contentAt_congr node).symm

/-- With nobody in between, a reader sees what `serve_symbol` sends. -/
theorem serveSymbol_alone {filename : Text} {candidate : Location} {content : List UInt8}
    (sent : serveSymbol disk cwd storePath module buildId filename = .sent candidate content) (held : names[index]? = some candidate) :
    Reaches (State.begin (contentAt disk) jobs names) index candidate (.saw (some content)) := by
  have there : contentAt disk candidate = some content := by
    unfold serveSymbol at sent
    split at sent
    next resolved store _ _ =>
      split at sent
      next => cases sent
      next =>
        split at sent
        next bytes mtime found =>
          cases sent
          rw [contentAt, found]
          rfl
        next => cases sent
    next => cases sent
  have ready : (State.begin (contentAt disk) jobs names).readers[index]? = some ⟨candidate, .ready⟩ := by
    rw [State.begin, List.getElem?_map, held, Option.map_some]
  have seen := reader_alone ready fun _ => (sound_begin (contentAt disk) jobs names).linked
  rw [State.begin, view_holding, there] at seen
  exact seen

end Code

section Example
open Web.SymbolStore

instance (writer : Writer Location) (name : Location) (file : Nat) : Decidable (Busy writer name file) := inferInstanceAs (Decidable (_ ∧ _))

instance (writers : List (Writer Location)) (name : Location) (file : Nat) : Decidable (Idle writers name file) :=
  inferInstanceAs (Decidable (∀ writer ∈ writers, _))

instance (prior : Location → Option (List UInt8)) (writers : List (Writer Location)) (name : Location) (seen : Option (List UInt8)) :
    Decidable (Whole prior writers name seen) :=
  inferInstanceAs (Decidable (_ ∨ ∃ writer ∈ writers, _))

instance (state : State Location) (writer : Writer Location) (move : WriterMove) : Decidable (WriterClear state writer move) :=
  match move with
  | .mkdir => isTrue trivial
  | .place => inferInstanceAs (Decidable (_ → ∀ file ∈ _, Idle state.writers writer.name file ∧ ∀ reader ∈ state.readers, _))
  | .write _ => isTrue trivial
  | .fail => inferInstanceAs (Decidable (_ = _))

instance (state : State Location) (reader : Reader Location) (move : ReaderMove) : Decidable (ReaderClear state reader move) :=
  match move with
  | .look => isTrue trivial
  | .openFile => isTrue trivial
  | .read _ => inferInstanceAs (Decidable (∀ source ∈ _, _ → Idle state.writers reader.name _))

instance (state : State Location) (action : Action) : Decidable (Undisturbed state action) :=
  match action with
  | .writer _ _ => inferInstanceAs (Decidable (∀ writer ∈ _, WriterClear state writer _))
  | .reader _ _ => inferInstanceAs (Decidable (∀ reader ∈ _, ReaderClear state reader _))

def oldText : Text := "MODULE Linux x86_64 AB1 app\nPUBLIC 0 0 old\n".toList

def newText : Text := "MODULE Linux x86_64 AB1 app\nPUBLIC 0 0 new\n".toList

def appSym : Location := ["store".toList, "app".toList, "AB1".toList, "app.sym".toList]

/-- A store with one symbol file. -/
def storedApp : Disk :=
  let blank : Disk := ⟨[], 8, fun _ => (0, 0), Nodes.unique_nil, Nodes.held_nil⟩
  (((blank.put [] "store".toList .directory).put ["store".toList] "app".toList .directory).put ["store".toList, "app".toList]
    "AB1".toList .directory).put ["store".toList, "app".toList, "AB1".toList] "app.sym".toList (.file (Python.encodeUtf8 oldText) 0)

/-- The file is stored anew. -/
def again : Job Location := ⟨appSym, Python.encodeUtf8 newText, .truncate⟩

theorem again_called : jobOf (addSymText storedApp.tree [] "/store".toList newText) = some again := by decide +kernel

/-- One reader before the call, and one after. -/
theorem turns_whole : ∃ last, run State.step (State.begin (contentAt storedApp) [again] [appSym, appSym])
      [.reader 0 .look, .reader 0 .openFile, .reader 0 (.read 99), .reader 0 (.read 0), .writer 0 .mkdir, .writer 0 .place,
        .writer 0 (.write 19), .writer 0 (.write 99), .reader 1 .look, .reader 1 .openFile, .reader 1 (.read 99), .reader 1 (.read 0)] =
        some last ∧
      last.readers = [⟨appSym, .saw (some (Python.encodeUtf8 oldText))⟩, ⟨appSym, .saw (some (Python.encodeUtf8 newText))⟩] ∧
      ReadsWhole (contentAt storedApp) last ∧ KeepsWhole (contentAt storedApp) last := by
  have ends : (run State.step (State.begin (contentAt storedApp) [again] [appSym, appSym])
      [.reader 0 .look, .reader 0 .openFile, .reader 0 (.read 99), .reader 0 (.read 0), .writer 0 .mkdir, .writer 0 .place,
        .writer 0 (.write 19), .writer 0 (.write 99), .reader 1 .look, .reader 1 .openFile, .reader 1 (.read 99), .reader 1 (.read 0)]).map
      State.readers =
      some [⟨appSym, .saw (some (Python.encodeUtf8 oldText))⟩, ⟨appSym, .saw (some (Python.encodeUtf8 newText))⟩] := by decide +kernel
  obtain ⟨last, ran, readers⟩ := Option.map_eq_some_iff.mp ends
  exact ⟨last, ran, readers, undisturbed_whole (contentAt storedApp) [again] [appSym, appSym] (by decide +kernel) ran⟩

/-- A reader that comes between the opening and the writing sees an empty file; a call that fails
while it writes leaves a part of the new text. -/
theorem half_written_seen :
    (¬ ∀ (disk : Disk) (cwd : Location) (storePath symText : Text) (job : Job Location),
      jobOf (addSymText disk.tree cwd storePath symText) = some job → ∀ actions last,
        run State.step (State.begin (contentAt disk) [job] [job.name]) actions = some last → ReadsWhole (contentAt disk) last) ∧
    ¬ ∀ (disk : Disk) (cwd : Location) (storePath symText : Text) (job : Job Location),
      jobOf (addSymText disk.tree cwd storePath symText) = some job → ∀ actions last,
        run State.step (State.begin (contentAt disk) [job] [job.name]) actions = some last → KeepsWhole (contentAt disk) last := by
  constructor
  · intro all
    have ends : (run State.step (State.begin (contentAt storedApp) [again] [appSym])
        [.writer 0 .mkdir, .writer 0 .place, .reader 0 .look, .reader 0 .openFile, .reader 0 (.read 99)]).map
        (fun last => (last.readers, last.writers)) = some ([⟨appSym, .saw (some [])⟩], [⟨again, .writing 0 0⟩]) := by decide +kernel
    obtain ⟨last, ran, same⟩ := Option.map_eq_some_iff.mp ends
    obtain ⟨readers, writers⟩ := Prod.mk.inj same
    have whole := all storedApp [] "/store".toList newText again again_called _ last ran
    rw [ReadsWhole, readers, writers] at whole
    exact absurd (whole _ (List.mem_singleton_self _) _ rfl) (by decide +kernel)
  · intro all
    have ends : (run State.step (State.begin (contentAt storedApp) [again] [appSym])
        [.writer 0 .mkdir, .writer 0 .place, .writer 0 (.write 9), .writer 0 .fail]).map
        (fun last => (last.files.view appSym, last.writers)) = some (some ((Python.encodeUtf8 newText).take 10), [⟨again, .failed⟩]) := by
      decide +kernel
    obtain ⟨last, ran, same⟩ := Option.map_eq_some_iff.mp ends
    obtain ⟨left, writers⟩ := Prod.mk.inj same
    have whole := all storedApp [] "/store".toList newText again again_called _ last ran appSym
    rw [left, writers] at whole
    have idle (file : Nat) : Idle [⟨again, .failed⟩] appSym file := by
      intro writer member busy
      cases List.mem_singleton.mp member
      cases busy.2
    exact absurd (whole idle) (by decide +kernel)

end Example

end Crashomon.Proofs.StoreReads
