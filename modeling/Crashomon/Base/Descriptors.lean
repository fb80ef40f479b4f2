import Mathlib.Data.List.Basic
import Mathlib.Logic.Function.Basic

/-! Descriptors that processes hold and pass to each other in messages. An object is open as long as a
process holds it or a message that nobody has received carries it. -/

namespace Crashomon

structure Descriptor (Object : Type) where
  object : Object
  closeOnExec : Bool
  deriving DecidableEq, Repr

/-- Data, and the object whose descriptor goes with it. -/
structure Parcel (Payload Object : Type) where
  payload : Payload
  object : Object
  deriving DecidableEq, Repr

structure Descriptors (Process Channel Payload Object : Type) where
  held : Process → List (Descriptor Object)
  /-- Sent and not yet received, oldest first. -/
  inFlight : Channel → List (Parcel Payload Object)

namespace Descriptors
variable {Process Channel Payload Object : Type} {table : Descriptors Process Channel Payload Object}
  {process : Process} {channel : Channel} {object : Object}

def none : Descriptors Process Channel Payload Object := ⟨fun _ => [], fun _ => []⟩

def Holds (table : Descriptors Process Channel Payload Object) (process : Process) (object : Object) : Prop :=
  ∃ descriptor ∈ table.held process, descriptor.object = object

def Carries (table : Descriptors Process Channel Payload Object) (channel : Channel) (object : Object) : Prop :=
  ∃ parcel ∈ table.inFlight channel, parcel.object = object

/-- Somebody can still reach the object. -/
def Referenced (table : Descriptors Process Channel Payload Object) (object : Object) : Prop :=
  (∃ process, table.Holds process object) ∨ ∃ channel, table.Carries channel object

theorem Holds.referenced (holds : table.Holds process object) : table.Referenced object := Or.inl ⟨process, holds⟩

theorem Carries.referenced (carries : table.Carries channel object) : table.Referenced object := Or.inr ⟨channel, carries⟩

section Processes
variable [DecidableEq Process]

def set (table : Descriptors Process Channel Payload Object) (process : Process) (held : List (Descriptor Object)) :
    Descriptors Process Channel Payload Object :=
  { table with held := Function.update table.held process held }

def «open» (table : Descriptors Process Channel Payload Object) (process : Process) (descriptor : Descriptor Object) :
    Descriptors Process Channel Payload Object :=
  table.set process (descriptor :: table.held process)

def close [DecidableEq Object] (table : Descriptors Process Channel Payload Object) (process : Process) (object : Object) :
    Descriptors Process Channel Payload Object :=
  table.set process ((table.held process).eraseP fun descriptor => descriptor.object = object)

def exit (table : Descriptors Process Channel Payload Object) (process : Process) : Descriptors Process Channel Payload Object :=
  table.set process []

def fork (table : Descriptors Process Channel Payload Object) (parent child : Process) :
    Descriptors Process Channel Payload Object :=
  table.set child (table.held parent)

def exec (table : Descriptors Process Channel Payload Object) (process : Process) : Descriptors Process Channel Payload Object :=
  table.set process ((table.held process).filter fun descriptor => !descriptor.closeOnExec)

@[simp] theorem held_set (held : List (Descriptor Object)) : (table.set process held).held = Function.update table.held process held := rfl
@[simp] theorem inFlight_set (held : List (Descriptor Object)) : (table.set process held).inFlight = table.inFlight := rfl

theorem open_open (first second : Descriptor Object) :
    (table.open process first).open process second = table.set process (second :: first :: table.held process) := by
  simp [Descriptors.open, set]

/-- A process that gets no object of its own adds no reference. -/
theorem Referenced.of_set {held : List (Descriptor Object)} (referenced : (table.set process held).Referenced object)
    (known : ∀ descriptor ∈ held, descriptor.object = object → table.Referenced object) : table.Referenced object := by
  obtain ⟨holder, descriptor, member, same⟩ | carried := referenced
  · rw [held_set] at member
    by_cases self : holder = process
    · subst self
      rw [Function.update_self] at member
      exact known descriptor member same
    · rw [Function.update_of_ne self] at member
      exact Or.inl ⟨holder, descriptor, member, same⟩
  · exact Or.inr carried

theorem Referenced.of_open {descriptor : Descriptor Object} (referenced : (table.open process descriptor).Referenced object) :
    descriptor.object = object ∨ table.Referenced object := by
  by_cases fresh : descriptor.object = object
  · exact Or.inl fresh
  · refine Or.inr (referenced.of_set fun held member same => ?_)
    obtain rfl | member := List.mem_cons.mp member
    · exact absurd same fresh
    · exact Holds.referenced ⟨held, member, same⟩

theorem Referenced.of_close [DecidableEq Object] {closed : Object} (referenced : (table.close process closed).Referenced object) :
    table.Referenced object :=
  referenced.of_set fun descriptor member same => Holds.referenced ⟨descriptor, List.mem_of_mem_eraseP member, same⟩

theorem Referenced.of_exit (referenced : (table.exit process).Referenced object) : table.Referenced object :=
  referenced.of_set fun _ member _ => absurd member List.not_mem_nil

theorem Referenced.of_fork {parent child : Process} (referenced : (table.fork parent child).Referenced object) :
    table.Referenced object :=
  referenced.of_set fun descriptor member same => Holds.referenced ⟨descriptor, member, same⟩

theorem Referenced.of_exec (referenced : (table.exec process).Referenced object) : table.Referenced object :=
  referenced.of_set fun descriptor member same => Holds.referenced ⟨descriptor, List.mem_of_mem_filter member, same⟩

end Processes

section Channels
variable [DecidableEq Channel]

def queue (table : Descriptors Process Channel Payload Object) (channel : Channel) (parcels : List (Parcel Payload Object)) :
    Descriptors Process Channel Payload Object :=
  { table with inFlight := Function.update table.inFlight channel parcels }

def send (table : Descriptors Process Channel Payload Object) (channel : Channel) (parcel : Parcel Payload Object) :
    Descriptors Process Channel Payload Object :=
  table.queue channel (table.inFlight channel ++ [parcel])

/-- The oldest message leaves the channel. -/
def advance (table : Descriptors Process Channel Payload Object) (channel : Channel) : Descriptors Process Channel Payload Object :=
  table.queue channel (table.inFlight channel).tail

/-- The receiving end is closed for good. -/
def discard (table : Descriptors Process Channel Payload Object) (channel : Channel) : Descriptors Process Channel Payload Object :=
  table.queue channel []

@[simp] theorem held_queue (parcels : List (Parcel Payload Object)) : (table.queue channel parcels).held = table.held := rfl
@[simp] theorem inFlight_queue (parcels : List (Parcel Payload Object)) :
    (table.queue channel parcels).inFlight = Function.update table.inFlight channel parcels := rfl

@[simp] theorem held_send (parcel : Parcel Payload Object) : (table.send channel parcel).held = table.held := rfl
@[simp] theorem held_advance : (table.advance channel).held = table.held := rfl
@[simp] theorem held_discard : (table.discard channel).held = table.held := rfl

theorem Referenced.of_queue {parcels : List (Parcel Payload Object)} (referenced : (table.queue channel parcels).Referenced object)
    (known : ∀ parcel ∈ parcels, parcel.object = object → table.Referenced object) : table.Referenced object := by
  obtain held | ⟨route, parcel, member, same⟩ := referenced
  · exact Or.inl held
  · rw [inFlight_queue] at member
    by_cases self : route = channel
    · subst self
      rw [Function.update_self] at member
      exact known parcel member same
    · rw [Function.update_of_ne self] at member
      exact Or.inr ⟨route, parcel, member, same⟩

/-- What is sent is open with its sender. -/
theorem Referenced.of_send {parcel : Parcel Payload Object} (referenced : (table.send channel parcel).Referenced object)
    (sender : table.Referenced parcel.object) : table.Referenced object := by
  refine referenced.of_queue fun sent member same => ?_
  obtain queued | added := List.mem_append.mp member
  · exact Carries.referenced ⟨sent, queued, same⟩
  · rw [List.mem_singleton.mp added] at same
    exact same ▸ sender

theorem Referenced.of_advance (referenced : (table.advance channel).Referenced object) : table.Referenced object :=
  referenced.of_queue fun parcel member same => Carries.referenced ⟨parcel, List.mem_of_mem_tail member, same⟩

theorem Referenced.of_discard (referenced : (table.discard channel).Referenced object) : table.Referenced object :=
  referenced.of_queue fun _ member _ => absurd member List.not_mem_nil

/-- A message that is taken in leaves its object with the receiver: no reference is added. -/
theorem Referenced.of_receive [DecidableEq Process] {parcel : Parcel Payload Object} {closeOnExec : Bool}
    (first : parcel ∈ table.inFlight channel)
    (referenced : ((table.advance channel).open process ⟨parcel.object, closeOnExec⟩).Referenced object) :
    table.Referenced object := by
  obtain same | kept := referenced.of_open
  · exact Carries.referenced ⟨parcel, first, same⟩
  · exact kept.of_advance

end Channels
end Descriptors
end Crashomon
