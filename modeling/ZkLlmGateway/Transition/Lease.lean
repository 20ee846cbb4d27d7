import ZkLlmGateway.Transition.System
import Mathlib.Order.Basic
import Mathlib.Order.Nat

/-!
# Leases recognised by the value they store

One slot is shared by any number of holders.  A holder takes the slot by
writing a stamp into it, when the slot is absent or holds a stamp that may be
replaced, and later releases or settles it when the slot still holds the same
stamp.  Nothing but the stamp says whose entry it is.  The slot lives in a log
that a crash may cut back to any point after the last flush.

The module proves what such a lease guarantees under four kinds of schedules:
any at all, those with a clock that never steps back, those without faults, and
those in which no stamp is taken while another holder has it.
-/

namespace ZkLlmGateway.Transition.Lease

/-- What the slot holds. -/
inductive Slot (Stamp : Type)
  | absent
  | pending (stamp : Stamp)
  | spent
  | other
  deriving DecidableEq

/-- The slot can be taken. -/
def Slot.Free {Stamp : Type} : Slot Stamp → Prop
  | absent => True
  | pending _ => True
  | spent => False
  | other => False

instance {Stamp : Type} (slot : Slot Stamp) : Decidable slot.Free := by
  cases slot <;> unfold Slot.Free <;> infer_instance

/-- The slot together with who wrote it. -/
structure Entry (Id Stamp : Type) where
  slot : Slot Stamp
  writer : Option Id

/-- The stamp a holder wrote, when it took the slot and how many writes came
before. -/
structure Hold (Stamp : Type) where
  stamp : Stamp
  since : Nat
  turn : Nat
  deriving DecidableEq

/-- Where a client of the lease is. -/
inductive Role (Stamp : Type)
  | idle
  | holding (hold : Hold Stamp)
  | paid
  | confirmed
  | gone
  deriving DecidableEq

namespace Role

variable {Stamp : Type}

/-- Settled, with or without a flush since. -/
def Pays : Role Stamp → Prop
  | paid => True
  | confirmed => True
  | _ => False

/-- The role after the client's process is lost. -/
def stop : Role Stamp → Role Stamp
  | idle => idle
  | confirmed => confirmed
  | _ => gone

@[simp]
theorem stop_ne_holding (role : Role Stamp) (hold : Hold Stamp) : role.stop ≠ holding hold := by
  cases role <;> simp [stop]

@[simp]
theorem stop_ne_paid (role : Role Stamp) : role.stop ≠ paid := by
  cases role <;> simp [stop]

@[simp]
theorem stop_eq_confirmed_iff (role : Role Stamp) : role.stop = confirmed ↔ role = confirmed := by
  cases role <;> simp [stop]

theorem pays_iff {role : Role Stamp} : role.Pays ↔ role = paid ∨ role = confirmed := by
  cases role <;> simp [Pays]

end Role

structure State (Id Stamp : Type) where
  entry : Entry Id Stamp
  /-- Earlier entries that a crash may bring back, newest first. -/
  past : List (Entry Id Stamp)
  role : Id → Role Stamp
  clock : Nat
  /-- Number of writes so far. -/
  turn : Nat

/-- One step of the lease. -/
inductive Label (Id Stamp : Type)
  | tick (clock : Nat)
  | take (id : Id) (stamp : Stamp)
  /-- The slot is written, but the client is told that it failed. -/
  | strand (id : Id) (stamp : Stamp)
  | leave (id : Id)
  | release (id : Id)
  | settle (id : Id)
  /-- The slot is settled, but the client is told that it failed. -/
  | settleLost (id : Id)
  | confirm (id : Id)
  /-- A write that leaves the slot as it is. -/
  | keep
  | persist
  | crash (age : Nat)

variable {Id Stamp : Type}

/-- Write the slot and change the writer's role. -/
def State.write [DecidableEq Id] (state : State Id Stamp) (entry : Entry Id Stamp) (id : Id)
    (role : Role Stamp) : State Id Stamp where
  entry := entry
  past := state.entry :: state.past
  role := Function.update state.role id role
  clock := state.clock
  turn := state.turn + 1

/-- The client holds the slot, and its stamp is stored. -/
def State.Owns (state : State Id Stamp) (id : Id) : Prop :=
  match state.role id with
  | .holding hold => state.entry.slot = .pending hold.stamp
  | _ => False

instance [DecidableEq Stamp] (state : State Id Stamp) (id : Id) : Decidable (state.Owns id) := by
  unfold State.Owns
  split <;> infer_instance

theorem State.owns_iff {state : State Id Stamp} {id : Id} :
    state.Owns id ↔ ∃ hold, state.role id = .holding hold ∧
      state.entry.slot = .pending hold.stamp := by
  unfold State.Owns
  cases state.role id <;> simp

theorem State.Owns.free {state : State Id Stamp} {id : Id} (owns : state.Owns id) :
    state.entry.slot.Free := by
  obtain ⟨_, _, stored⟩ := State.owns_iff.mp owns
  rw [stored]
  trivial

/-- A slot that is not pending has no owner. -/
theorem State.not_owns_of_slot {state : State Id Stamp}
    (slot : ∀ stamp, state.entry.slot ≠ .pending stamp) (id : Id) : ¬state.Owns id := by
  intro owns
  obtain ⟨hold, _, stored⟩ := State.owns_iff.mp owns
  exact slot hold.stamp stored

def step [DecidableEq Id] [DecidableEq Stamp] (state : State Id Stamp) :
    Label Id Stamp → Option (State Id Stamp)
  | .tick clock => some { state with clock := clock }
  | .take id stamp =>
      if state.role id = .idle ∧ state.entry.slot.Free then
        some (state.write ⟨.pending stamp, some id⟩ id
          (.holding ⟨stamp, state.clock, state.turn⟩))
      else none
  | .strand id stamp =>
      if state.role id = .idle ∧ state.entry.slot.Free then
        some (state.write ⟨.pending stamp, some id⟩ id .gone)
      else none
  | .leave id =>
      if state.role id = .confirmed then none
      else some { state with role := Function.update state.role id .gone }
  | .release id => if state.Owns id then some (state.write ⟨.absent, none⟩ id .gone) else none
  | .settle id => if state.Owns id then some (state.write ⟨.spent, some id⟩ id .paid) else none
  | .settleLost id => if state.Owns id then some (state.write ⟨.spent, some id⟩ id .gone) else none
  | .confirm id =>
      if state.role id = .paid then
        some { state with past := [], role := Function.update state.role id .confirmed }
      else none
  | .keep => some { state with past := state.entry :: state.past, turn := state.turn + 1 }
  | .persist => some { state with past := [] }
  | .crash age =>
      match (state.entry :: state.past).drop age with
      | [] => none
      | entry :: past =>
          some { state with entry := entry, past := past, role := fun id => (state.role id).stop }

/-- Every client starts idle, with the slot in one of the `initial` states. -/
def system (Id : Type) {Stamp : Type} [DecidableEq Id] [DecidableEq Stamp]
    (initial : Slot Stamp → Prop) : System (State Id Stamp) (Label Id Stamp) where
  init state := initial state.entry.slot ∧ ∀ id, state.role id = .idle
  step := step

/-! ## Schedules -/

/-- The clock never steps back, and a stored stamp is replaced only after its
deadline. -/
def Timed (deadline : Stamp → Nat) (state : State Id Stamp) : Label Id Stamp → Prop
  | .tick clock => state.clock ≤ clock
  | .take _ _ | .strand _ _ =>
      ∀ existing, state.entry.slot = .pending existing → deadline existing < state.clock
  | _ => True

/-- No write is lost, nothing crashes, and a holder gives up only what it no
longer has. -/
def Faultless (state : State Id Stamp) : Label Id Stamp → Prop
  | .strand _ _ | .settleLost _ | .crash _ => False
  | .leave id => ¬state.Owns id ∧ state.role id ≠ .paid
  | _ => True

/-- No stamp is written while another client holds the slot with it. -/
def Apart (state : State Id Stamp) : Label Id Stamp → Prop
  | .take _ stamp | .strand _ stamp =>
      ∀ other hold, state.role other = .holding hold → hold.stamp ≠ stamp
  | _ => True

/-! ## At most one client is paid -/

/-- A payment is the last word on the slot, and a confirmed one survives any
crash. -/
structure PaidOnce (state : State Id Stamp) : Prop where
  paid : ∀ id, (state.role id).Pays → state.entry.slot = .spent
  confirmed : ∀ id, state.role id = .confirmed → ∀ entry ∈ state.past, entry.slot = .spent
  unique : ∀ left right, (state.role left).Pays → (state.role right).Pays → left = right

/-- While the slot can be taken nobody has been paid. -/
theorem PaidOnce.not_pays {state : State Id Stamp} (once : PaidOnce state)
    (free : state.entry.slot.Free) (id : Id) : ¬(state.role id).Pays := by
  intro pays
  rw [once.paid id pays] at free
  exact free

/-- A step that leaves the slot alone and pays nobody. -/
theorem PaidOnce.of_fewer {state target : State Id Stamp} (once : PaidOnce state)
    (entry : target.entry = state.entry)
    (past : ∀ entry ∈ target.past, entry ∈ state.entry :: state.past)
    (fewer : ∀ id, (target.role id).Pays → (state.role id).Pays)
    (confirmed : ∀ id, target.role id = .confirmed → state.role id = .confirmed) :
    PaidOnce target where
  paid id pays := entry ▸ once.paid id (fewer id pays)
  confirmed id isConfirmed := by
    intro older member
    have before := confirmed id isConfirmed
    rcases List.mem_cons.mp (past older member) with rfl | inPast
    · exact once.paid id (Role.pays_iff.mpr (.inr before))
    · exact once.confirmed id before older inPast
  unique left right leftPays rightPays :=
    once.unique left right (fewer left leftPays) (fewer right rightPays)

/-- A client that gives up takes nothing from the others. -/
theorem PaidOnce.leave [DecidableEq Id] {state : State Id Stamp} (once : PaidOnce state)
    (id : Id) : PaidOnce { state with role := Function.update state.role id .gone } := by
  have unchanged : ∀ other, (Function.update state.role id .gone other).Pays →
      Function.update state.role id .gone other = state.role other := by
    intro other pays
    by_cases same : other = id
    · subst same
      rw [Function.update_self] at pays
      exact pays.elim
    · exact Function.update_of_ne same _ _
  refine once.of_fewer rfl (fun _ member => List.mem_cons_of_mem _ member) ?_ ?_
  · intro other pays
    exact unchanged other pays ▸ pays
  · intro other isConfirmed
    exact unchanged other (Role.pays_iff.mpr (.inr isConfirmed)) ▸ isConfirmed

/-- Writing a free slot keeps payments unique, when a writer that is paid
settles it. -/
theorem PaidOnce.write [DecidableEq Id] {state : State Id Stamp} (once : PaidOnce state)
    (free : state.entry.slot.Free) (entry : Entry Id Stamp) (id : Id) (role : Role Stamp)
    (settles : role.Pays → entry.slot = .spent) (unconfirmed : role ≠ .confirmed) :
    PaidOnce (state.write entry id role) := by
  have only : ∀ other, (Function.update state.role id role other).Pays → other = id := by
    intro other pays
    by_contra different
    rw [Function.update_of_ne different] at pays
    exact once.not_pays free other pays
  constructor
  · intro other pays
    obtain rfl := only other pays
    simp only [State.write, Function.update_self] at pays
    exact settles pays
  · intro other isConfirmed
    obtain rfl := only other (Role.pays_iff.mpr (.inr isConfirmed))
    simp only [State.write, Function.update_self] at isConfirmed
    exact absurd isConfirmed unconfirmed
  · intro left right leftPays rightPays
    exact (only left leftPays).trans (only right rightPays).symm

/-- A payment that is flushed has nothing older to fall back to. -/
theorem PaidOnce.confirm [DecidableEq Id] {state : State Id Stamp} (once : PaidOnce state)
    {id : Id} (isPaid : state.role id = .paid) :
    PaidOnce { state with past := [], role := Function.update state.role id .confirmed } := by
  have before : ∀ other, (Function.update state.role id .confirmed other).Pays →
      (state.role other).Pays := by
    intro other pays
    by_cases same : other = id
    · rw [same, isPaid]
      trivial
    · rwa [Function.update_of_ne same] at pays
  constructor
  · intro other pays
    exact once.paid other (before other pays)
  · intro other _ older member
    contradiction
  · intro left right leftPays rightPays
    exact once.unique left right (before left leftPays) (before right rightPays)

/-- A crash keeps exactly the confirmed payments, and finds them settled. -/
theorem PaidOnce.crash {state : State Id Stamp} (once : PaidOnce state) {age : Nat}
    {entry : Entry Id Stamp} {past : List (Entry Id Stamp)}
    (kept : (state.entry :: state.past).drop age = entry :: past) :
    PaidOnce { state with entry := entry, past := past
                          role := fun id => (state.role id).stop } := by
  have confirmedBefore : ∀ id, (state.role id).stop.Pays → state.role id = .confirmed := by
    intro id pays
    simpa [Role.pays_iff] using pays
  have kept_spent : ∀ id, state.role id = .confirmed →
      ∀ older ∈ entry :: past, older.slot = .spent := by
    intro id isConfirmed older member
    have original : older ∈ state.entry :: state.past :=
      List.mem_of_mem_drop (kept ▸ member)
    rcases List.mem_cons.mp original with rfl | inPast
    · exact once.paid id (Role.pays_iff.mpr (.inr isConfirmed))
    · exact once.confirmed id isConfirmed older inPast
  constructor
  · intro id pays
    exact kept_spent id (confirmedBefore id pays) entry List.mem_cons_self
  · intro id isConfirmed older member
    exact kept_spent id (by simpa using isConfirmed) older (List.mem_cons_of_mem _ member)
  · intro left right leftPays rightPays
    exact once.unique left right
      (Role.pays_iff.mpr (.inr (confirmedBefore left leftPays)))
      (Role.pays_iff.mpr (.inr (confirmedBefore right rightPays)))

section Runs

variable [DecidableEq Id] [DecidableEq Stamp]

theorem PaidOnce.preserved {state target : State Id Stamp} {label : Label Id Stamp}
    (once : PaidOnce state) (stepped : step state label = some target) : PaidOnce target := by
  cases label with
  | tick clock =>
      cases stepped
      exact once.of_fewer rfl (fun _ member => List.mem_cons_of_mem _ member)
        (fun _ pays => pays) (fun _ isConfirmed => isConfirmed)
  | take id stamp =>
      obtain ⟨⟨_, free⟩, ⟨⟩⟩ := Option.ite_none_right_eq_some.mp stepped
      exact once.write free _ id _ False.elim (by simp)
  | strand id stamp =>
      obtain ⟨⟨_, free⟩, ⟨⟩⟩ := Option.ite_none_right_eq_some.mp stepped
      exact once.write free _ id _ False.elim (by simp)
  | leave id =>
      obtain ⟨_, ⟨⟩⟩ := Option.ite_none_left_eq_some.mp stepped
      exact once.leave id
  | release id =>
      obtain ⟨owns, ⟨⟩⟩ := Option.ite_none_right_eq_some.mp stepped
      exact once.write owns.free _ id _ False.elim (by simp)
  | settle id =>
      obtain ⟨owns, ⟨⟩⟩ := Option.ite_none_right_eq_some.mp stepped
      exact once.write owns.free _ id _ (fun _ => rfl) (by simp)
  | settleLost id =>
      obtain ⟨owns, ⟨⟩⟩ := Option.ite_none_right_eq_some.mp stepped
      exact once.write owns.free _ id _ (fun _ => rfl) (by simp)
  | confirm id =>
      obtain ⟨isPaid, ⟨⟩⟩ := Option.ite_none_right_eq_some.mp stepped
      exact once.confirm isPaid
  | keep =>
      cases stepped
      exact once.of_fewer rfl (fun _ member => member) (fun _ pays => pays)
        (fun _ isConfirmed => isConfirmed)
  | persist =>
      cases stepped
      exact once.of_fewer rfl (fun _ member => by contradiction) (fun _ pays => pays)
        (fun _ isConfirmed => isConfirmed)
  | crash age =>
      simp only [step] at stepped
      split at stepped
      next => contradiction
      next entry past kept =>
        cases stepped
        exact once.crash kept

/-- In every run at most one client is paid. -/
theorem paidOnce_of_reachable {initial : Slot Stamp → Prop}
    {allowed : State Id Stamp → Label Id Stamp → Prop} {state : State Id Stamp}
    (reachable : (system Id initial).Reachable allowed state) : PaidOnce state := by
  apply reachable.invariant
  · rintro state ⟨_, idle⟩
    constructor
    · intro id pays
      rw [idle id] at pays
      exact pays.elim
    · intro id isConfirmed
      rw [idle id] at isConfirmed
      contradiction
    · intro left right leftPays
      rw [idle left] at leftPays
      exact leftPays.elim
  · intro state label target once _ stepped
    exact once.preserved stepped

end Runs

/-! ## Holders are ordered by their deadlines -/

/-- A holder still has its stamp in the slot, or its deadline is past; and a
later holder took the slot after the deadline of every earlier one. -/
structure Ordered (deadline : Stamp → Nat) (state : State Id Stamp) : Prop where
  current : ∀ id hold, state.role id = .holding hold →
    state.entry.slot = .pending hold.stamp ∨ deadline hold.stamp < state.clock
  bounded : ∀ id hold, state.role id = .holding hold →
    hold.turn < state.turn ∧ hold.since ≤ state.clock
  distinct : ∀ first second firstHold secondHold, state.role first = .holding firstHold →
    state.role second = .holding secondHold → firstHold.turn = secondHold.turn → first = second
  ordered : ∀ first second firstHold secondHold, state.role first = .holding firstHold →
    state.role second = .holding secondHold → firstHold.turn < secondHold.turn →
    deadline firstHold.stamp < secondHold.since

/-- Fewer holders and a later clock, with a slot that changes only when every
remaining deadline is past. -/
theorem Ordered.of_fewer {deadline : Stamp → Nat} {state target : State Id Stamp}
    (isOrdered : Ordered deadline state) (later : state.clock ≤ target.clock)
    (moreTurns : state.turn ≤ target.turn)
    (fewer : ∀ id hold, target.role id = .holding hold → state.role id = .holding hold)
    (entry : target.entry = state.entry ∨ ∀ id hold, target.role id = .holding hold →
      deadline hold.stamp < target.clock) : Ordered deadline target where
  current id hold holds := by
    rcases entry with unchanged | expired
    · rw [unchanged]
      rcases isOrdered.current id hold (fewer id hold holds) with stored | past
      · exact .inl stored
      · exact .inr (Nat.lt_of_lt_of_le past later)
    · exact .inr (expired id hold holds)
  bounded id hold holds := by
    obtain ⟨turn, since⟩ := isOrdered.bounded id hold (fewer id hold holds)
    exact ⟨Nat.lt_of_lt_of_le turn moreTurns, since.trans later⟩
  distinct first second firstHold secondHold firstHolds secondHolds :=
    isOrdered.distinct _ _ _ _ (fewer _ _ firstHolds) (fewer _ _ secondHolds)
  ordered first second firstHold secondHold firstHolds secondHolds :=
    isOrdered.ordered _ _ _ _ (fewer _ _ firstHolds) (fewer _ _ secondHolds)

/-- When the slot may be taken, the deadline of every holder is past. -/
theorem Ordered.expired {deadline : Stamp → Nat} {state : State Id Stamp}
    (isOrdered : Ordered deadline state)
    (stale : ∀ existing, state.entry.slot = .pending existing → deadline existing < state.clock)
    {id : Id} {hold : Hold Stamp} (holds : state.role id = .holding hold) :
    deadline hold.stamp < state.clock := by
  rcases isOrdered.current id hold holds with stored | past
  · exact stale hold.stamp stored
  · exact past

/-- When a client still owns the slot, the deadline of every other holder is
past, even of one with the same stamp. -/
theorem Ordered.expired_of_owns {deadline : Stamp → Nat} {state : State Id Stamp}
    (isOrdered : Ordered deadline state) {owner id : Id} (owns : state.Owns owner)
    (different : id ≠ owner) {hold : Hold Stamp} (holds : state.role id = .holding hold) :
    deadline hold.stamp < state.clock := by
  obtain ⟨ownHold, ownHolds, owned⟩ := State.owns_iff.mp owns
  rcases isOrdered.current id hold holds with stored | past
  · -- Two holders of one stamp: the later of them took it over when it was stale.
    have sameStamp : hold.stamp = ownHold.stamp := by
      rw [owned] at stored
      exact (Slot.pending.inj stored).symm
    have turns : hold.turn ≠ ownHold.turn := by
      intro sameTurn
      exact different (isOrdered.distinct _ _ _ _ holds ownHolds sameTurn)
    rcases Nat.lt_or_gt_of_ne turns with before | after
    · exact Nat.lt_of_lt_of_le (isOrdered.ordered _ _ _ _ holds ownHolds before)
        (isOrdered.bounded _ _ ownHolds).2
    · rw [sameStamp]
      exact Nat.lt_of_lt_of_le (isOrdered.ordered _ _ _ _ ownHolds holds after)
        (isOrdered.bounded _ _ holds).2
  · exact past

/-- Two holders whose deadlines are not past are one. -/
theorem Ordered.unique {deadline : Stamp → Nat} {state : State Id Stamp}
    (isOrdered : Ordered deadline state) {first second : Id} {firstHold secondHold : Hold Stamp}
    (firstHolds : state.role first = .holding firstHold)
    (secondHolds : state.role second = .holding secondHold)
    (firstLive : state.clock ≤ deadline firstHold.stamp)
    (secondLive : state.clock ≤ deadline secondHold.stamp) : first = second := by
  rcases Nat.lt_trichotomy firstHold.turn secondHold.turn with before | same | after
  · have expired := isOrdered.ordered _ _ _ _ firstHolds secondHolds before
    have since := (isOrdered.bounded _ _ secondHolds).2
    omega
  · exact isOrdered.distinct _ _ _ _ firstHolds secondHolds same
  · have expired := isOrdered.ordered _ _ _ _ secondHolds firstHolds after
    have since := (isOrdered.bounded _ _ firstHolds).2
    omega

/-- The other holders after a client's role became one that holds nothing. -/
theorem holds_of_update [DecidableEq Id] {roles : Id → Role Stamp} {id other : Id}
    {role : Role Stamp} {hold : Hold Stamp} (notHolding : ∀ hold, role ≠ .holding hold)
    (holds : Function.update roles id role other = .holding hold) :
    other ≠ id ∧ roles other = .holding hold := by
  by_cases same : other = id
  · subst same
    rw [Function.update_self] at holds
    exact absurd holds (notHolding hold)
  · rw [Function.update_of_ne same] at holds
    exact ⟨same, holds⟩

/-- Writing the slot and no longer holding it. -/
theorem Ordered.write [DecidableEq Id] {deadline : Stamp → Nat} {state : State Id Stamp}
    (isOrdered : Ordered deadline state) (entry : Entry Id Stamp) (id : Id)
    {role : Role Stamp} (notHolding : ∀ hold, role ≠ .holding hold)
    (expired : ∀ other hold, other ≠ id → state.role other = .holding hold →
      deadline hold.stamp < state.clock) : Ordered deadline (state.write entry id role) := by
  refine isOrdered.of_fewer le_rfl (Nat.le_succ _) ?_ (.inr ?_)
  · intro other hold holds
    exact (holds_of_update notHolding holds).2
  · intro other hold holds
    obtain ⟨different, before⟩ := holds_of_update notHolding holds
    exact expired other hold different before

/-- Taking the slot when every deadline is past. -/
theorem Ordered.take [DecidableEq Id] {deadline : Stamp → Nat} {state : State Id Stamp}
    (isOrdered : Ordered deadline state) (id : Id) (stamp : Stamp)
    (expired : ∀ other hold, state.role other = .holding hold →
      deadline hold.stamp < state.clock) :
    Ordered deadline (state.write ⟨.pending stamp, some id⟩ id
      (.holding ⟨stamp, state.clock, state.turn⟩)) := by
  -- The new holder has the last turn; all others are as before.
  have cases : ∀ other hold,
      Function.update state.role id (.holding ⟨stamp, state.clock, state.turn⟩) other =
        .holding hold →
      (other = id ∧ hold = ⟨stamp, state.clock, state.turn⟩) ∨
        (state.role other = .holding hold) := by
    intro other hold holds
    by_cases same : other = id
    · subst same
      rw [Function.update_self] at holds
      exact .inl ⟨rfl, (Role.holding.inj holds).symm⟩
    · rw [Function.update_of_ne same] at holds
      exact .inr holds
  constructor
  · intro other hold holds
    rcases cases other hold holds with ⟨rfl, rfl⟩ | before
    · exact .inl rfl
    · exact .inr (expired other hold before)
  · intro other hold holds
    rcases cases other hold holds with ⟨rfl, rfl⟩ | before
    · exact ⟨Nat.lt_succ_self _, le_rfl⟩
    · obtain ⟨turn, since⟩ := isOrdered.bounded other hold before
      exact ⟨Nat.lt_succ_of_lt turn, since⟩
  · intro first second firstHold secondHold firstHolds secondHolds sameTurn
    rcases cases first firstHold firstHolds with ⟨rfl, rfl⟩ | firstBefore <;>
      rcases cases second secondHold secondHolds with ⟨rfl, rfl⟩ | secondBefore
    · rfl
    · exact absurd sameTurn.symm (isOrdered.bounded _ _ secondBefore).1.ne
    · exact absurd sameTurn (isOrdered.bounded _ _ firstBefore).1.ne
    · exact isOrdered.distinct _ _ _ _ firstBefore secondBefore sameTurn
  · intro first second firstHold secondHold firstHolds secondHolds before
    rcases cases first firstHold firstHolds with ⟨rfl, rfl⟩ | firstBefore <;>
      rcases cases second secondHold secondHolds with ⟨rfl, rfl⟩ | secondBefore
    · exact absurd before (lt_irrefl _)
    · exact absurd before (isOrdered.bounded _ _ secondBefore).1.not_gt
    · exact expired first firstHold firstBefore
    · exact isOrdered.ordered _ _ _ _ firstBefore secondBefore before

section Runs

variable [DecidableEq Id] [DecidableEq Stamp]

theorem Ordered.preserved {deadline : Stamp → Nat} {state target : State Id Stamp}
    {label : Label Id Stamp} (isOrdered : Ordered deadline state)
    (timed : Timed deadline state label) (stepped : step state label = some target) :
    Ordered deadline target := by
  cases label with
  | tick clock =>
      cases stepped
      exact isOrdered.of_fewer timed le_rfl (fun _ _ holds => holds) (.inl rfl)
  | take id stamp =>
      obtain ⟨_, ⟨⟩⟩ := Option.ite_none_right_eq_some.mp stepped
      exact isOrdered.take id stamp fun _ _ => isOrdered.expired timed
  | strand id stamp =>
      obtain ⟨_, ⟨⟩⟩ := Option.ite_none_right_eq_some.mp stepped
      exact isOrdered.write _ id (by simp) fun _ _ _ => isOrdered.expired timed
  | leave id =>
      obtain ⟨_, ⟨⟩⟩ := Option.ite_none_left_eq_some.mp stepped
      exact isOrdered.of_fewer le_rfl le_rfl
        (fun _ _ holds => (holds_of_update (by simp) holds).2) (.inl rfl)
  | release id =>
      obtain ⟨owns, ⟨⟩⟩ := Option.ite_none_right_eq_some.mp stepped
      exact isOrdered.write _ id (by simp) fun _ _ different =>
        isOrdered.expired_of_owns owns different
  | settle id =>
      obtain ⟨owns, ⟨⟩⟩ := Option.ite_none_right_eq_some.mp stepped
      exact isOrdered.write _ id (by simp) fun _ _ different =>
        isOrdered.expired_of_owns owns different
  | settleLost id =>
      obtain ⟨owns, ⟨⟩⟩ := Option.ite_none_right_eq_some.mp stepped
      exact isOrdered.write _ id (by simp) fun _ _ different =>
        isOrdered.expired_of_owns owns different
  | confirm id =>
      obtain ⟨_, ⟨⟩⟩ := Option.ite_none_right_eq_some.mp stepped
      exact isOrdered.of_fewer le_rfl le_rfl
        (fun _ _ holds => (holds_of_update (by simp) holds).2) (.inl rfl)
  | keep =>
      cases stepped
      exact isOrdered.of_fewer le_rfl (Nat.le_succ _) (fun _ _ holds => holds) (.inl rfl)
  | persist =>
      cases stepped
      exact isOrdered.of_fewer le_rfl le_rfl (fun _ _ holds => holds) (.inl rfl)
  | crash age =>
      simp only [step] at stepped
      split at stepped
      next => contradiction
      next entry past kept =>
        cases stepped
        exact isOrdered.of_fewer le_rfl le_rfl (fun _ _ holds => absurd holds (by simp))
          (.inr fun _ _ holds => absurd holds (by simp))

/-- In every timed run a later holder took the slot after the deadline of every
earlier one. -/
theorem ordered_of_reachable {initial : Slot Stamp → Prop} {deadline : Stamp → Nat}
    {state : State Id Stamp} (reachable : (system Id initial).Reachable (Timed deadline) state) :
    Ordered deadline state := by
  apply reachable.invariant
  · rintro state ⟨_, idle⟩
    have none : ∀ id hold, state.role id ≠ .holding hold := by
      intro id hold holds
      rw [idle id] at holds
      contradiction
    exact ⟨fun id hold holds => absurd holds (none id hold),
      fun id hold holds => absurd holds (none id hold),
      fun first _ firstHold _ holds => absurd holds (none first firstHold),
      fun first _ firstHold _ holds => absurd holds (none first firstHold)⟩
  · intro state label target isOrdered timed stepped
    exact isOrdered.preserved timed stepped

end Runs

/-! ## A stored stamp belongs to its writer -/

/-- No two clients hold one stamp, and whoever owns the slot wrote it. -/
structure Owned (state : State Id Stamp) : Prop where
  distinct : ∀ first second firstHold secondHold, state.role first = .holding firstHold →
    state.role second = .holding secondHold → firstHold.stamp = secondHold.stamp → first = second
  writer : ∀ id, state.Owns id → state.entry.writer = some id

/-- Fewer holders, with a slot that stays or is owned by nobody. -/
theorem Owned.of_fewer {state target : State Id Stamp} (owned : Owned state)
    (fewer : ∀ id hold, target.role id = .holding hold → state.role id = .holding hold)
    (entry : target.entry = state.entry ∨ ∀ id, ¬target.Owns id) : Owned target where
  distinct first second firstHold secondHold firstHolds secondHolds :=
    owned.distinct _ _ _ _ (fewer _ _ firstHolds) (fewer _ _ secondHolds)
  writer id owns := by
    rcases entry with unchanged | unowned
    · rw [unchanged]
      obtain ⟨hold, holds, stored⟩ := State.owns_iff.mp owns
      exact owned.writer id
        (State.owns_iff.mpr ⟨hold, fewer id hold holds, unchanged ▸ stored⟩)
    · exact absurd owns (unowned id)

section Runs

variable [DecidableEq Id] [DecidableEq Stamp]

theorem Owned.preserved {state target : State Id Stamp} {label : Label Id Stamp}
    (owned : Owned state) (apart : Apart state label)
    (stepped : step state label = some target) : Owned target := by
  cases label with
  | tick clock =>
      cases stepped
      exact owned.of_fewer (fun _ _ holds => holds) (.inl rfl)
  | take id stamp =>
      obtain ⟨_, ⟨⟩⟩ := Option.ite_none_right_eq_some.mp stepped
      have holder : ∀ other hold, Function.update state.role id
          (.holding ⟨stamp, state.clock, state.turn⟩) other = .holding hold →
          hold.stamp = stamp → other = id := by
        intro other hold holds sameStamp
        by_contra different
        rw [Function.update_of_ne different] at holds
        exact apart other hold holds sameStamp
      constructor
      · intro first second firstHold secondHold firstHolds secondHolds sameStamp
        by_cases firstIs : first = id
        · subst firstIs
          simp only [State.write, Function.update_self] at firstHolds
          cases firstHolds
          exact (holder second secondHold secondHolds sameStamp.symm).symm
        · by_cases secondIs : second = id
          · subst secondIs
            simp only [State.write, Function.update_self] at secondHolds
            cases secondHolds
            exact holder first firstHold firstHolds sameStamp
          · simp only [State.write, Function.update_of_ne firstIs] at firstHolds
            simp only [State.write, Function.update_of_ne secondIs] at secondHolds
            exact owned.distinct _ _ _ _ firstHolds secondHolds sameStamp
      · intro other owns
        obtain ⟨hold, holds, stored⟩ := State.owns_iff.mp owns
        rw [holder other hold holds (Slot.pending.inj stored).symm]
        rfl
  | strand id stamp =>
      obtain ⟨_, ⟨⟩⟩ := Option.ite_none_right_eq_some.mp stepped
      refine owned.of_fewer (fun _ _ holds => (holds_of_update (by simp) holds).2) (.inr ?_)
      intro other owns
      obtain ⟨hold, holds, stored⟩ := State.owns_iff.mp owns
      exact apart other hold (holds_of_update (by simp) holds).2 (Slot.pending.inj stored).symm
  | leave id =>
      obtain ⟨_, ⟨⟩⟩ := Option.ite_none_left_eq_some.mp stepped
      exact owned.of_fewer (fun _ _ holds => (holds_of_update (by simp) holds).2) (.inl rfl)
  | release id =>
      obtain ⟨_, ⟨⟩⟩ := Option.ite_none_right_eq_some.mp stepped
      exact owned.of_fewer (fun _ _ holds => (holds_of_update (by simp) holds).2)
        (.inr (State.not_owns_of_slot (by simp [State.write])))
  | settle id =>
      obtain ⟨_, ⟨⟩⟩ := Option.ite_none_right_eq_some.mp stepped
      exact owned.of_fewer (fun _ _ holds => (holds_of_update (by simp) holds).2)
        (.inr (State.not_owns_of_slot (by simp [State.write])))
  | settleLost id =>
      obtain ⟨_, ⟨⟩⟩ := Option.ite_none_right_eq_some.mp stepped
      exact owned.of_fewer (fun _ _ holds => (holds_of_update (by simp) holds).2)
        (.inr (State.not_owns_of_slot (by simp [State.write])))
  | confirm id =>
      obtain ⟨_, ⟨⟩⟩ := Option.ite_none_right_eq_some.mp stepped
      exact owned.of_fewer (fun _ _ holds => (holds_of_update (by simp) holds).2) (.inl rfl)
  | keep =>
      cases stepped
      exact owned.of_fewer (fun _ _ holds => holds) (.inl rfl)
  | persist =>
      cases stepped
      exact owned.of_fewer (fun _ _ holds => holds) (.inl rfl)
  | crash age =>
      simp only [step] at stepped
      split at stepped
      next => contradiction
      next entry past kept =>
        cases stepped
        refine owned.of_fewer (fun _ _ holds => absurd holds (by simp)) (.inr ?_)
        intro id owns
        obtain ⟨hold, holds, _⟩ := State.owns_iff.mp owns
        exact absurd holds (by simp)

/-- In every run that keeps stamps apart, an owner of the slot wrote it. -/
theorem owned_of_reachable {initial : Slot Stamp → Prop} {state : State Id Stamp}
    (reachable : (system Id initial).Reachable Apart state) : Owned state := by
  apply reachable.invariant
  · rintro state ⟨_, idle⟩
    constructor
    · intro first second firstHold secondHold holds
      rw [idle first] at holds
      contradiction
    · intro id owns
      obtain ⟨hold, holds, _⟩ := State.owns_iff.mp owns
      rw [idle id] at holds
      contradiction
  · intro state label target owned apart stepped
    exact owned.preserved apart stepped

end Runs

/-! ## The slot at rest -/

/-- Somebody answers for whatever the slot holds. -/
structure Answered (state : State Id Stamp) : Prop where
  pending : ∀ stamp, state.entry.slot = .pending stamp → ∃ id, state.Owns id
  spent : state.entry.slot = .spent → ∃ id, (state.role id).Pays
  known : state.entry.slot ≠ .other

/-- A slot that stays, with no owner or payer lost. -/
theorem Answered.of_kept {state target : State Id Stamp} (answered : Answered state)
    (entry : target.entry = state.entry)
    (owners : ∀ id, state.Owns id → target.role id = state.role id)
    (payers : ∀ id, (state.role id).Pays → (target.role id).Pays) : Answered target where
  pending stamp stored := by
    obtain ⟨id, owns⟩ := answered.pending stamp (entry ▸ stored)
    refine ⟨id, ?_⟩
    obtain ⟨hold, holds, slot⟩ := State.owns_iff.mp owns
    exact State.owns_iff.mpr ⟨hold, (owners id owns).trans holds, entry ▸ slot⟩
  spent stored := by
    obtain ⟨id, pays⟩ := answered.spent (entry ▸ stored)
    exact ⟨id, payers id pays⟩
  known := entry ▸ answered.known

section Runs

variable [DecidableEq Id] [DecidableEq Stamp]

theorem Answered.preserved {state target : State Id Stamp} {label : Label Id Stamp}
    (answered : Answered state) (faultless : Faultless state label)
    (stepped : step state label = some target) : Answered target := by
  cases label with
  | tick clock =>
      cases stepped
      exact answered.of_kept rfl (fun _ _ => rfl) (fun _ pays => pays)
  | take id stamp =>
      obtain ⟨_, ⟨⟩⟩ := Option.ite_none_right_eq_some.mp stepped
      constructor
      · intro stored _
        exact ⟨id, State.owns_iff.mpr ⟨_, Function.update_self _ _ _, rfl⟩⟩
      · intro stored
        contradiction
      · simp [State.write]
  | leave id =>
      obtain ⟨_, ⟨⟩⟩ := Option.ite_none_left_eq_some.mp stepped
      obtain ⟨notOwner, notPaid⟩ := faultless
      refine answered.of_kept rfl ?_ ?_
      · intro other owns
        refine Function.update_of_ne ?_ _ _
        rintro rfl
        exact notOwner owns
      · intro other pays
        by_cases same : other = id
        · subst same
          rcases Role.pays_iff.mp pays with isPaid | isConfirmed
          · exact absurd isPaid notPaid
          · contradiction
        · simpa only [Function.update_of_ne same] using pays
  | release id =>
      obtain ⟨_, ⟨⟩⟩ := Option.ite_none_right_eq_some.mp stepped
      constructor <;> intros <;> simp_all [State.write]
  | settle id =>
      obtain ⟨_, ⟨⟩⟩ := Option.ite_none_right_eq_some.mp stepped
      constructor
      · intro stamp stored
        contradiction
      · intro _
        refine ⟨id, ?_⟩
        simp [State.write, Role.Pays]
      · simp [State.write]
  | confirm id =>
      obtain ⟨isPaid, ⟨⟩⟩ := Option.ite_none_right_eq_some.mp stepped
      refine answered.of_kept rfl ?_ ?_
      · intro other owns
        refine Function.update_of_ne ?_ _ _
        rintro rfl
        simp [State.Owns, isPaid] at owns
      · intro other pays
        by_cases same : other = id
        · subst same
          simp [Role.Pays]
        · simpa only [Function.update_of_ne same] using pays
  | keep =>
      cases stepped
      exact answered.of_kept rfl (fun _ _ => rfl) (fun _ pays => pays)
  | persist =>
      cases stepped
      exact answered.of_kept rfl (fun _ _ => rfl) (fun _ pays => pays)
  | strand id stamp => exact faultless.elim
  | settleLost id => exact faultless.elim
  | crash age => exact faultless.elim

/-- In every faultless run from an absent slot, somebody answers for it. -/
theorem answered_of_reachable {initial : Slot Stamp → Prop}
    (absent : ∀ slot, initial slot → slot = .absent) {state : State Id Stamp}
    (reachable : (system Id initial).Reachable Faultless state) : Answered state := by
  apply reachable.invariant
  · rintro state ⟨isInitial, _⟩
    have isAbsent := absent state.entry.slot isInitial
    constructor <;> intros <;> simp_all
  · intro state label target answered faultless stepped
    exact answered.preserved faultless stepped

end Runs

end ZkLlmGateway.Transition.Lease
