import Mathlib.Data.List.Infix

/-!
# Bounded channels

A sender puts items into a channel of a fixed capacity and a receiver takes them out in
the same order.  The sender waits while the channel is full, but not once the receiver
is gone: what it sends then is lost.
-/

namespace ZkLlmGateway.Transition

universe u

/-- The items that are in the channel.  What has been received is history. -/
structure Channel (α : Type u) where
  isOpen : Bool
  buffer : List α
  received : List α

namespace Channel

variable {α : Type u}

def fresh : Channel α :=
  ⟨true, [], []⟩

/-- `none` when the sender waits. -/
def send (capacity : Nat) (channel : Channel α) (item : α) : Option (Channel α) :=
  if channel.isOpen then
    if channel.buffer.length < capacity then
      some { channel with buffer := channel.buffer ++ [item] }
    else none
  else some channel

/-- `none` when the receiver waits. -/
def receive (channel : Channel α) : Option (Channel α) :=
  if channel.isOpen then
    match channel.buffer with
    | [] => none
    | item :: rest => some { channel with buffer := rest, received := channel.received ++ [item] }
  else none

/-- The receiver is gone. -/
def close (channel : Channel α) : Channel α :=
  { channel with isOpen := false, buffer := [] }

/-- What has been received is a beginning of the script, and what is in the channel comes next;
with the receiver there, what is not yet sent is the rest. -/
structure Carries (capacity : Nat) (script rest : List α) (channel : Channel α) : Prop where
  isPrefix : channel.received ++ channel.buffer <+: script
  whole : channel.isOpen = true → channel.received ++ channel.buffer ++ rest = script
  bounded : channel.buffer.length ≤ capacity

section Carries

variable {capacity : Nat} {script rest : List α} {channel next : Channel α} {item : α}

theorem Carries.send (carries : channel.Carries capacity script (item :: rest))
    (sends : channel.send capacity item = some next) : next.Carries capacity script rest := by
  rw [Channel.send] at sends
  split at sends
  next isOpen =>
    obtain ⟨fits, ⟨⟩⟩ := Option.ite_none_right_eq_some.mp sends
    have whole := carries.whole isOpen
    have same : channel.received ++ (channel.buffer ++ [item]) ++ rest = script := by
      rw [← whole]
      simp only [List.append_assoc, List.singleton_append]
    refine ⟨⟨rest, same⟩, fun _ => same, ?_⟩
    rw [List.length_append, List.length_singleton]
    exact fits
  next isClosed =>
    cases sends
    exact ⟨carries.isPrefix, fun isOpen => absurd isOpen isClosed, carries.bounded⟩

theorem Carries.receive (carries : channel.Carries capacity script rest)
    (receives : channel.receive = some next) : next.Carries capacity script rest := by
  rw [Channel.receive] at receives
  split at receives
  next isOpen =>
    split at receives
    next => contradiction
    next item buffer isBuffer =>
      cases receives
      obtain ⟨isPrefix, whole, bounded⟩ := carries
      rw [isBuffer] at isPrefix whole bounded
      have same : channel.received ++ [item] ++ buffer = channel.received ++ item :: buffer :=
        List.append_assoc channel.received [item] buffer
      refine ⟨?_, fun _ => ?_, Nat.le_of_succ_le bounded⟩
      · rw [same]
        exact isPrefix
      · rw [same]
        exact whole isOpen
  next => contradiction

theorem Carries.close (carries : channel.Carries capacity script rest) :
    channel.close.Carries capacity script rest where
  isPrefix := by
    rw [Channel.close, List.append_nil]
    exact (List.prefix_append channel.received channel.buffer).trans carries.isPrefix
  whole isOpen := absurd isOpen Bool.false_ne_true
  bounded := Nat.zero_le capacity

/-- The script may grow at its end. -/
theorem Carries.extend (carries : channel.Carries capacity script rest) (more : List α) :
    channel.Carries capacity (script ++ more) (rest ++ more) where
  isPrefix := carries.isPrefix.trans (List.prefix_append script more)
  whole isOpen := by rw [← List.append_assoc, carries.whole isOpen]
  bounded := carries.bounded

theorem Carries.received_prefix (carries : channel.Carries capacity script rest) :
    channel.received <+: script :=
  (List.prefix_append channel.received channel.buffer).trans carries.isPrefix

end Carries

/-! ## Progress -/

section Progress

variable {capacity : Nat} {channel next : Channel α} {item : α}

/-- Sending leaves the receiver where it is. -/
theorem isOpen_of_send (sends : channel.send capacity item = some next) :
    next.isOpen = channel.isOpen ∧ next.buffer.length ≤ channel.buffer.length + 1 := by
  rw [Channel.send] at sends
  split at sends
  next =>
    obtain ⟨_, ⟨⟩⟩ := Option.ite_none_right_eq_some.mp sends
    exact ⟨rfl, (List.length_append ..).le⟩
  next =>
    cases sends
    exact ⟨rfl, Nat.le_succ _⟩

/-- The sender waits only for a receiver that is there and has something to receive. -/
theorem isFull_of_send_eq_none (positive : 0 < capacity)
    (waits : channel.send capacity item = none) :
    channel.isOpen = true ∧ channel.buffer ≠ [] := by
  rw [Channel.send] at waits
  split at waits
  next isOpen =>
    refine ⟨isOpen, fun isEmpty => ?_⟩
    rw [isEmpty, List.length_nil, if_pos positive] at waits
    contradiction
  next => contradiction

theorem exists_receive (isOpen : channel.isOpen = true) (nonempty : channel.buffer ≠ []) :
    ∃ next, channel.receive = some next ∧ next.isOpen = true ∧
      next.buffer.length < channel.buffer.length := by
  cases isBuffer : channel.buffer with
  | nil => exact absurd isBuffer nonempty
  | cons first buffer =>
      refine ⟨{ channel with buffer := buffer, received := channel.received ++ [first] }, ?_,
        isOpen,
        Nat.lt_succ_self _⟩
      rw [Channel.receive, if_pos isOpen, isBuffer]

end Progress

end Channel

end ZkLlmGateway.Transition
