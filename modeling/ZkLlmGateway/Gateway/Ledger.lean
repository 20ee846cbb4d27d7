import ZkLlmGateway.Gateway.World

/-!
# One replay key as a lease

Seen from one replay key, the handlers and the store are a lease: the stored
value is its slot, a request between its reservation and its release or mark
is a holder.  `lease_simulates` maps every step of the world to a step of that
lease, or to none, so that what holds of every lease holds of every key.
-/

namespace ZkLlmGateway.Gateway

open ZkLlmGateway.Encoding ZkLlmGateway.Common ZkLlmGateway.Interaction ZkLlmGateway.Transition

/-! ## The slot -/

/-- What a stored value says about its key. -/
def slotOf : Option Bytes → Lease.Slot UInt64
  | none => .absent
  | some value =>
      match decodeNullifierValue value with
      | none => .other
      | some (status, ts) =>
          if status = pendingStatus then .pending ts
          else if status = spentStatus then .spent
          else .other

@[simp]
theorem slotOf_none : slotOf none = .absent :=
  rfl

@[simp]
theorem slotOf_pendingValue (stamp : UInt64) :
    slotOf (some (pendingValue stamp)) = .pending stamp := by
  simp [slotOf, pendingValue]

@[simp]
theorem slotOf_spentValue (stamp : UInt64) : slotOf (some (spentValue stamp)) = .spent := by
  simp [slotOf, spentValue, pendingStatus, spentStatus]

theorem slotOf_eq_pending_iff {value : Option Bytes} {stamp : UInt64} :
    slotOf value = .pending stamp ↔ value = some (pendingValue stamp) := by
  constructor
  · intro isPending
    cases value with
    | none => contradiction
    | some value =>
        simp only [slotOf] at isPending
        split at isPending
        next => contradiction
        next status ts decoded =>
          split at isPending
          next isStatus =>
            cases isPending
            subst isStatus
            rw [encodeNullifierValue_of_decode decoded, pendingValue]
          next =>
            split at isPending <;> contradiction
  · rintro rfl
    exact slotOf_pendingValue stamp

theorem slotOf_eq_absent_iff {value : Option Bytes} : slotOf value = .absent ↔ value = none := by
  cases value with
  | none => simp
  | some value =>
      simp only [slotOf, reduceCtorEq, iff_false]
      split
      next => simp
      next =>
        split
        next => simp
        next => split <;> simp

theorem slotOf_eq_spent_iff {value : Option Bytes} :
    slotOf value = .spent ↔ ∃ stamp, value = some (spentValue stamp) := by
  constructor
  · intro isSpent
    cases value with
    | none => contradiction
    | some value =>
        simp only [slotOf] at isSpent
        split at isSpent
        next => contradiction
        next status ts decoded =>
          split at isSpent
          next => contradiction
          next =>
            split at isSpent
            next isStatus =>
              subst isStatus
              exact ⟨ts, by rw [encodeNullifierValue_of_decode decoded, spentValue]⟩
            next => contradiction
  · rintro ⟨stamp, rfl⟩
    exact slotOf_spentValue stamp

def entryOf (key : Bytes) (store : Store) : Lease.Entry Nat UInt64 where
  slot := slotOf ((store key).map StoredValue.value)
  writer := (store key).bind StoredValue.writer

/-! ## The roles -/

/-- The key and the stamp of a request between its reservation and its release
or mark. -/
def Stage.held : Stage → Option (Bytes × UInt64)
  | flushingReserve rkey stamp => some (rkey, stamp)
  | calling rkey stamp => some (rkey, stamp)
  | releasing rkey stamp _ => some (rkey, stamp)
  | stampingSpent rkey stamp _ => some (rkey, stamp)
  | marking rkey stamp _ _ => some (rkey, stamp)
  | _ => none

/-- The role of a control point on a key. -/
def Stage.role (key : Bytes) (since turn : Nat) : Stage → Lease.Role UInt64
  | flushingReserve rkey stamp | calling rkey stamp | releasing rkey stamp _
  | stampingSpent rkey stamp _ | marking rkey stamp _ _ =>
      if rkey = key then .holding ⟨stamp, since, turn⟩ else .idle
  | flushingRelease rkey _ _ => if rkey = key then .gone else .idle
  | flushingMark rkey _ => if rkey = key then .paid else .idle
  | _ => .idle

def Progress.role (key : Bytes) (since turn : Nat) : Progress → Lease.Role UInt64
  | waiting stage => stage.role key since turn
  | answered (some rkey) (.ok _) => if rkey = key then .confirmed else .idle
  | answered (some rkey) (.error _) => if rkey = key then .gone else .idle
  | answered none _ => .idle

def Task.role (key : Bytes) (task : Task) : Lease.Role UInt64 :=
  if task.lost then (task.progress.role key task.since task.turn).stop
  else task.progress.role key task.since task.turn

def World.roleOf (key : Bytes) (world : World) (id : Nat) : Lease.Role UInt64 :=
  match world.tasks id with
  | none => .idle
  | some task => task.role key

/-- The lease a world shows on a key. -/
def World.lease (key : Bytes) (world : World) : Lease.State Nat UInt64 where
  entry := entryOf key world.db.store
  past := world.db.unflushed.map (entryOf key)
  role := world.roleOf key
  clock := world.clock.toNat
  turn := world.db.writes

/-- A stamp is stale once the clock is past this. -/
def deadline (state : AppState) (stamp : UInt64) : Nat :=
  stamp.toNat + state.nullifierPendingTtlMs.toNat

theorem slot_lease (key : Bytes) (world : World) :
    (world.lease key).entry.slot = slotOf (world.db.valueAt key) :=
  rfl

@[simp]
theorem World.roleOf_update (key : Bytes) (world : World) (id : Nat) (task : Task) (db : Db)
    (clock : UInt64) :
    World.roleOf key ⟨Function.update world.tasks id (some task), db, clock⟩ =
      Function.update (world.roleOf key) id (task.role key) := by
  funext other
  by_cases same : other = id
  · subst same
    simp [World.roleOf]
  · simp [World.roleOf, Function.update_of_ne same]

@[simp]
theorem Task.role_lose (key : Bytes) (task : Task) : task.lose.role key = (task.role key).stop := by
  have answered : ∀ rkey outcome since turn,
      (Progress.role key since turn (.answered rkey outcome)).stop =
        Progress.role key since turn (.answered rkey outcome) := by
    intro rkey outcome since turn
    rcases rkey with _ | rkey
    · rfl
    · rcases outcome with problem | response <;> simp only [Progress.role] <;> split <;> rfl
  have twice : ∀ role : Lease.Role UInt64, role.stop.stop = role.stop := by
    intro role
    cases role <;> rfl
  obtain ⟨envelope, request, events, progress, lost, since, turn⟩ := task
  cases progress with
  | waiting stage => cases lost <;> simp [lose, role, twice]
  | answered rkey outcome => cases lost <;> simp [lose, role, answered]

theorem Task.role_of_stage? {key : Bytes} {task : Task} {stage : Stage}
    (running : task.stage? = some stage) : task.role key = stage.role key task.since task.turn := by
  obtain ⟨notLost, waits⟩ := Task.stage?_eq_some_iff.mp running
  simp [Task.role, notLost, waits, Progress.role]

/-- The key and the stamp a running request holds. -/
def Task.held (task : Task) : Option (Bytes × UInt64) :=
  task.stage?.bind Stage.held

theorem Stage.role_eq_holding_iff {key : Bytes} {since turn : Nat} {stage : Stage}
    {hold : Lease.Hold UInt64} :
    stage.role key since turn = .holding hold ↔
      stage.held = some (key, hold.stamp) ∧ hold.since = since ∧ hold.turn = turn := by
  obtain ⟨stamp, holdSince, holdTurn⟩ := hold
  cases stage <;> simp [Stage.role, Stage.held, eq_comm, and_assoc] <;> grind

theorem Progress.role_answered_ne_holding {key : Bytes} {since turn : Nat}
    {rkey : Option Bytes} {outcome : InferOutcome} {hold : Lease.Hold UInt64} :
    Progress.role key since turn (.answered rkey outcome) ≠ .holding hold := by
  rcases rkey with _ | rkey
  · simp [Progress.role]
  · rcases outcome with problem | response <;> simp only [Progress.role] <;> split <;> simp

theorem Task.role_eq_holding_iff {key : Bytes} {task : Task} {hold : Lease.Hold UInt64} :
    task.role key = .holding hold ↔
      task.held = some (key, hold.stamp) ∧ hold.since = task.since ∧ hold.turn = task.turn := by
  obtain ⟨envelope, request, events, progress, lost, since, turn⟩ := task
  cases lost with
  | true => simp [Task.role, Task.held, Task.stage?]
  | false =>
      cases progress with
      | waiting stage =>
          simpa [Task.role, Task.held, Task.stage?, Progress.role] using Stage.role_eq_holding_iff
      | answered rkey outcome =>
          simpa [Task.role, Task.held, Task.stage?] using Progress.role_answered_ne_holding

/-- The holders of the lease are the running requests that hold the key. -/
theorem World.roleOf_eq_holding_iff {key : Bytes} {world : World} {id : Nat}
    {hold : Lease.Hold UInt64} :
    world.roleOf key id = .holding hold ↔
      ∃ task, world.tasks id = some task ∧ task.held = some (key, hold.stamp) ∧
        hold.since = task.since ∧ hold.turn = task.turn := by
  unfold World.roleOf
  cases world.tasks id with
  | none => simp
  | some task => simpa using Task.role_eq_holding_iff

theorem Stage.role_ne_confirmed (key : Bytes) (since turn : Nat) (stage : Stage) :
    stage.role key since turn ≠ .confirmed := by
  unfold Stage.role
  split <;> (try split) <;> simp

theorem Progress.role_eq_confirmed_iff {key : Bytes} {since turn : Nat} {progress : Progress} :
    progress.role key since turn = .confirmed ↔
      ∃ response, progress = .answered (some key) (.ok response) := by
  cases progress with
  | waiting stage => simp [Progress.role, Stage.role_ne_confirmed]
  | answered rkey outcome =>
      rcases rkey with _ | rkey
      · simp [Progress.role]
      · rcases outcome with problem | response <;> simp only [Progress.role] <;> split <;> simp_all

/-- The confirmed clients of the lease are the requests that answered with a
provider response. -/
theorem World.roleOf_eq_confirmed_iff {key : Bytes} {world : World} {id : Nat} :
    world.roleOf key id = .confirmed ↔
      ∃ task response, world.tasks id = some task ∧
        task.progress = .answered (some key) (.ok response) := by
  unfold World.roleOf
  cases world.tasks id with
  | none => simp
  | some task => cases lost : task.lost <;> simp [Task.role, lost, Progress.role_eq_confirmed_iff]

theorem Stage.role_eq_paid_iff {since turn : Nat} {key : Bytes} {stage : Stage} :
    stage.role key since turn = .paid ↔ ∃ response, stage = .flushingMark key response := by
  cases stage <;> grind [Stage.role]

theorem Progress.role_answered_ne_paid {key : Bytes} {since turn : Nat} {rkey : Option Bytes}
    {outcome : InferOutcome} : Progress.role key since turn (.answered rkey outcome) ≠ .paid := by
  cases rkey <;> cases outcome <;> grind [Progress.role]

/-- The paid clients of the lease wait for the flush of their mark. -/
theorem World.stage_of_roleOf_paid {key : Bytes} {world : World} {id : Nat}
    (paid : world.roleOf key id = .paid) :
    ∃ task response, world.tasks id = some task ∧
      task.stage? = some (.flushingMark key response) := by
  unfold World.roleOf at paid
  split at paid
  next => contradiction
  next task found =>
    obtain ⟨envelope, request, events, progress, lost, since, turn⟩ := task
    cases lost with
    | true => simp [Task.role] at paid
    | false =>
        cases progress with
        | waiting stage =>
            obtain ⟨response, rfl⟩ := Stage.role_eq_paid_iff.mp paid
            exact ⟨_, response, found, rfl⟩
        | answered rkey outcome => exact absurd paid Progress.role_answered_ne_paid

/-! ## Conditions on a step -/

/-- The key a control point tries to reserve, the value it expects there and
the stamp it writes. -/
def Stage.attempt : Stage → Option (Bytes × Option Bytes × UInt64)
  | reserving rkey stamp => some (rkey, none, stamp)
  | replacing rkey stamp existing => some (rkey, some (pendingValue existing), stamp)
  | _ => none

/-- No reservation succeeds with the bytes that another running request holds
on the same key. -/
def Apart (world : World) : WorldEvent → Prop
  | .serve id _ => ∀ task stage rkey old stamp, world.tasks id = some task →
      task.stage? = some stage → stage.attempt = some (rkey, old, stamp) →
      world.db.valueAt rkey = old →
      ∀ other holder, world.tasks other = some holder → holder.held ≠ some (rkey, stamp)
  | _ => True

/-- Whoever is about to replace a value has seen that it is stale. -/
def World.StaleChecked (state : AppState) (world : World) : Prop :=
  ∀ id task rkey stamp existing, world.tasks id = some task →
    task.stage? = some (.replacing rkey stamp existing) →
    deadline state existing < world.clock.toNat

/-- On a key, a step of the world is no step of the lease, or one that its
schedule admits. -/
def Simulates (state : AppState) (key : Bytes) (world : World) (event : WorldEvent)
    (target : World) : Prop :=
  target.lease key = world.lease key ∨ ∃ label,
    Lease.step (world.lease key) label = some (target.lease key) ∧
    (world.StaleChecked state → Steady world event →
      Lease.Timed (deadline state) (world.lease key) label) ∧
    (NoFaults world event → Lease.Faultless (world.lease key) label) ∧
    (Apart world event → Lease.Apart (world.lease key) label)

end ZkLlmGateway.Gateway
