import ZkLlmGateway.Gateway.Ledger

/-!
# The world simulates the lease of every key

Every event is, on every replay key, one step of the lease or none.  The serve
events are taken control point by control point; a control point that works on
another key can only leave this one alone.
-/

namespace ZkLlmGateway.Gateway

open ZkLlmGateway.Encoding ZkLlmGateway.Common ZkLlmGateway.Interaction ZkLlmGateway.Transition

/-! ## How the lease changes -/

section Changes

variable {key : Bytes} {world : World} {id : Nat} {task served : Task}

/-- The request leaves its role, and the store, as they are. -/
theorem lease_same (found : world.tasks id = some task) (role : served.role key = task.role key) :
    World.lease key ⟨Function.update world.tasks id (some served), world.db, world.clock⟩ =
      world.lease key := by
  have sameRole : served.role key = world.roleOf key id := by
    simp [World.roleOf, found, role]
  simp [World.lease, sameRole]

/-- The store is flushed. -/
theorem lease_flushed :
    World.lease key ⟨Function.update world.tasks id (some served), world.db.flushed,
        world.clock⟩ =
      { world.lease key with
        past := []
        role := Function.update (world.roleOf key) id (served.role key) } := by
  simp [World.lease, Db.flushed]

/-- The store is left as it is. -/
theorem lease_role :
    World.lease key ⟨Function.update world.tasks id (some served), world.db, world.clock⟩ =
      { world.lease key with
        role := Function.update (world.roleOf key) id (served.role key) } := by
  simp [World.lease]

/-- The key is written. -/
theorem lease_write (new : Option Bytes) :
    World.lease key ⟨Function.update world.tasks id (some served), world.db.write id key new,
        world.clock⟩ =
      (world.lease key).write ⟨slotOf new, new.map fun _ => id⟩ id (served.role key) := by
  cases new <;> simp [World.lease, Db.write, Lease.State.write, entryOf]

/-- Another key is written. -/
theorem lease_write_other {other : Bytes} (different : other ≠ key) (new : Option Bytes) :
    World.lease key ⟨Function.update world.tasks id (some served), world.db.write id other new,
        world.clock⟩ =
      { world.lease key with
        past := (world.lease key).entry :: (world.lease key).past
        role := Function.update (world.roleOf key) id (served.role key)
        turn := (world.lease key).turn + 1 } := by
  simp [World.lease, Db.write, entryOf, Function.update_of_ne different.symm]

end Changes

/-! ## How the steps are simulated -/

section Steps

variable {state : AppState} {key : Bytes} {world target : World} {event : WorldEvent}

theorem Simulates.same (same : target.lease key = world.lease key) :
    Simulates state key world event target :=
  .inl same

/-- A step that no schedule restricts. -/
theorem Simulates.free (label : Lease.Label Nat UInt64)
    (stepped : Lease.step (world.lease key) label = some (target.lease key))
    (timed : Lease.Timed (deadline state) (world.lease key) label)
    (faultless : Lease.Faultless (world.lease key) label)
    (apart : Lease.Apart (world.lease key) label) : Simulates state key world event target :=
  .inr ⟨label, stepped, fun _ _ => timed, fun _ => faultless, fun _ => apart⟩

/-- A step that happens only under faults. -/
theorem Simulates.faulty (label : Lease.Label Nat UInt64) (fault : ¬NoFaults world event)
    (stepped : Lease.step (world.lease key) label = some (target.lease key))
    (timed : Lease.Timed (deadline state) (world.lease key) label)
    (apart : Lease.Apart (world.lease key) label) : Simulates state key world event target :=
  .inr ⟨label, stepped, fun _ _ => timed, fun noFaults => absurd noFaults fault, fun _ => apart⟩

variable {id : Nat} {task served : Task}

/-- The request gives up, with what it held, if anything. -/
theorem Simulates.leave (found : world.tasks id = some task)
    (unconfirmed : task.role key ≠ .confirmed) (gone : served.role key = .gone)
    (faultless : NoFaults world event →
      ¬(world.lease key).Owns id ∧ world.roleOf key id ≠ .paid) :
    Simulates state key world event
      ⟨Function.update world.tasks id (some served), world.db, world.clock⟩ := by
  refine .inr ⟨.leave id, ?_, fun _ _ => trivial, faultless, fun _ => trivial⟩
  have notConfirmed : (world.lease key).role id ≠ .confirmed := by
    simpa [World.lease, World.roleOf, found] using unconfirmed
  rw [Lease.step, if_neg notConfirmed, lease_role, gone]
  rfl

/-- The store is flushed, for this key or another. -/
theorem Simulates.persist (found : world.tasks id = some task)
    (role : served.role key = task.role key) :
    Simulates state key world event
      ⟨Function.update world.tasks id (some served), world.db.flushed, world.clock⟩ := by
  have sameRole : served.role key = world.roleOf key id := by
    simp [World.roleOf, found, role]
  refine .free .persist ?_ trivial trivial trivial
  rw [lease_flushed, sameRole, Function.update_eq_self]
  rfl

/-- Another key is written. -/
theorem Simulates.keep (found : world.tasks id = some task)
    (role : served.role key = task.role key) {other : Bytes} (different : other ≠ key)
    (new : Option Bytes) :
    Simulates state key world event
      ⟨Function.update world.tasks id (some served), world.db.write id other new,
        world.clock⟩ := by
  have sameRole : served.role key = world.roleOf key id := by
    simp [World.roleOf, found, role]
  refine .free .keep ?_ trivial trivial trivial
  rw [lease_write_other different, sameRole, Function.update_eq_self]
  rfl

/-- What makes a reservation of a key admissible. -/
structure Attempts (state : AppState) (key : Bytes) (world : World) (event : WorldEvent) (id : Nat)
    (stamp : UInt64) : Prop where
  idle : (world.lease key).role id = .idle
  free : (world.lease key).entry.slot.Free
  stale : world.StaleChecked state → ∀ existing,
    (world.lease key).entry.slot = .pending existing → deadline state existing < world.clock.toNat
  apart : Apart world event → ∀ other hold,
    (world.lease key).role other = .holding hold → hold.stamp ≠ stamp

/-- The reservation succeeds. -/
theorem Simulates.take {stamp : UInt64} (attempts : Attempts state key world event id stamp)
    (role : served.role key = .holding ⟨stamp, world.clock.toNat, world.db.writes⟩) :
    Simulates state key world event
      ⟨Function.update world.tasks id (some served),
        world.db.write id key (some (pendingValue stamp)), world.clock⟩ := by
  refine .inr ⟨.take id stamp, ?_, fun checked _ => attempts.stale checked, fun _ => trivial,
    attempts.apart⟩
  rw [Lease.step, if_pos ⟨attempts.idle, attempts.free⟩, lease_write, role, slotOf_pendingValue]
  rfl

/-- The reservation is stored, but reported as failed. -/
theorem Simulates.strand {stamp : UInt64} (attempts : Attempts state key world event id stamp)
    (fault : ¬NoFaults world event) (role : served.role key = .gone) :
    Simulates state key world event
      ⟨Function.update world.tasks id (some served),
        world.db.write id key (some (pendingValue stamp)), world.clock⟩ := by
  refine .inr ⟨.strand id stamp, ?_, fun checked _ => attempts.stale checked,
    fun noFaults => absurd noFaults fault, attempts.apart⟩
  rw [Lease.step, if_pos ⟨attempts.idle, attempts.free⟩, lease_write, role, slotOf_pendingValue]
  rfl

/-- The reservation is released. -/
theorem Simulates.release (owns : (world.lease key).Owns id) (role : served.role key = .gone) :
    Simulates state key world event
      ⟨Function.update world.tasks id (some served), world.db.write id key none,
        world.clock⟩ := by
  refine .free (.release id) ?_ trivial trivial trivial
  rw [Lease.step, if_pos owns, lease_write, role]
  rfl

/-- The reservation is marked spent. -/
theorem Simulates.settle {spentStamp : UInt64} (owns : (world.lease key).Owns id)
    (role : served.role key = .paid) :
    Simulates state key world event
      ⟨Function.update world.tasks id (some served),
        world.db.write id key (some (spentValue spentStamp)), world.clock⟩ := by
  refine .free (.settle id) ?_ trivial trivial trivial
  rw [Lease.step, if_pos owns, lease_write, role, slotOf_spentValue]
  rfl

/-- The reservation is marked spent, but the mark is reported as failed. -/
theorem Simulates.settleLost {spentStamp : UInt64} (owns : (world.lease key).Owns id)
    (fault : ¬NoFaults world event) (role : served.role key = .gone) :
    Simulates state key world event
      ⟨Function.update world.tasks id (some served),
        world.db.write id key (some (spentValue spentStamp)), world.clock⟩ := by
  refine .faulty (.settleLost id) fault ?_ trivial trivial
  rw [Lease.step, if_pos owns, lease_write, role, slotOf_spentValue]
  rfl

/-- The mark is flushed. -/
theorem Simulates.confirm (paid : (world.lease key).role id = .paid)
    (role : served.role key = .confirmed) :
    Simulates state key world event
      ⟨Function.update world.tasks id (some served), world.db.flushed, world.clock⟩ := by
  refine .free (.confirm id) ?_ trivial trivial trivial
  rw [Lease.step, if_pos paid, lease_flushed, role]
  rfl

/-- A control point that is about to reserve a key it found free. -/
theorem attempts_of_attempt {stage : Stage} {reply : Reply} {old : Option Bytes} {stamp : UInt64}
    (found : world.tasks id = some task) (running : task.stage? = some stage)
    (attempt : stage.attempt = some (key, old, stamp)) (isOld : world.db.valueAt key = old) :
    Attempts state key world (.serve id reply) id stamp := by
  have role : (world.lease key).role id = stage.role key task.since task.turn := by
    simp only [World.lease, World.roleOf, found]
    exact Task.role_of_stage? running
  have slot : (world.lease key).entry.slot = slotOf old := by rw [slot_lease, isOld]
  have apart : Apart world (.serve id reply) → ∀ other hold,
      (world.lease key).role other = .holding hold → hold.stamp ≠ stamp := by
    intro isApart other hold holds sameStamp
    obtain ⟨holder, foundHolder, held, _⟩ := World.roleOf_eq_holding_iff.mp holds
    rw [sameStamp] at held
    exact isApart task stage key old stamp found running attempt isOld other holder foundHolder held
  cases stage with
  | reserving rkey ownStamp =>
      cases attempt
      exact ⟨role, slot ▸ trivial, fun _ existing isPending => by simp [slot] at isPending, apart⟩
  | replacing rkey ownStamp existing =>
      cases attempt
      rw [slotOf_pendingValue] at slot
      refine ⟨role, slot ▸ trivial, ?_, apart⟩
      intro checked other isPending
      rw [slot] at isPending
      cases isPending
      exact checked id task key stamp existing found running
  | _ => contradiction

/-- A holder owns the slot exactly while its pending value is stored. -/
theorem owns_iff_of_held {stamp : UInt64} (found : world.tasks id = some task)
    (held : task.held = some (key, stamp)) :
    (world.lease key).Owns id ↔ world.db.valueAt key = some (pendingValue stamp) := by
  have holds : (world.lease key).role id = .holding ⟨stamp, task.since, task.turn⟩ :=
    World.roleOf_eq_holding_iff.mpr ⟨task, found, held, rfl, rfl⟩
  simp only [Lease.State.Owns, holds, slot_lease, slotOf_eq_pending_iff]

/-- The role after an answer. -/
theorem Task.role_advance {stage : Stage} (running : task.stage? = some stage)
    (clock writes : Nat) (answer : Answer (stage.query state task.request)) :
    (task.advance state clock writes stage answer).role key =
      (stage.resume state task.request answer).role key
        (if (stage.resume state task.request answer).reserved then clock else task.since)
        (if (stage.resume state task.request answer).reserved then writes else task.turn) := by
  simp [Task.advance, Task.role, (Task.stage?_eq_some_iff.mp running).1]

/-- The role at the control point an answer leads to. -/
theorem Task.role_of_resume {stage : Stage} {clock writes : Nat}
    {answer : Answer (stage.query state task.request)} (running : task.stage? = some stage)
    (progress : Progress) (leads : stage.resume state task.request answer = progress)
    {role : Lease.Role UInt64}
    (isRole : progress.role key (if progress.reserved then clock else task.since)
      (if progress.reserved then writes else task.turn) = role) :
    (task.advance state clock writes stage answer).role key = role := by
  rw [Task.role_advance running, leads, isRole]

/-- The world after a request is served. -/
def World.after (state : AppState) (world : World) (id : Nat) (task : Task) (stage : Stage)
    (answer : Answer (stage.query state task.request)) (db : Db) : World :=
  ⟨Function.update world.tasks id
    (some (task.advance state world.clock.toNat world.db.writes stage answer)), db, world.clock⟩

/-- The role is as before, and this key is not written. -/
theorem simulates_unmoved {stage : Stage} {reply : Reply} {next : Db}
    {answer : Answer (stage.query state task.request)} (found : world.tasks id = some task)
    (served : serveCall world.db world.clock id (stage.query state task.request) reply =
      some (answer, next))
    (role : (task.advance state world.clock.toNat world.db.writes stage answer).role key =
      task.role key)
    (elsewhere : ∀ old new, stage.query state task.request ≠ .compareAndSwap key old new) :
    Simulates state key world event (world.after state id task stage answer next) := by
  rcases serveCall_effect served with rfl | rfl | ⟨other, old, new, query, rfl⟩
  · exact .same (lease_same found role)
  · exact .persist found role
  · exact .keep found role (fun same => elsewhere old new (same ▸ query)) new

/-- The request gives up without an effect on the store. -/
theorem simulates_gone {stage : Stage} {answer : Answer (stage.query state task.request)}
    (found : world.tasks id = some task) (running : task.stage? = some stage)
    (gone : (task.advance state world.clock.toNat world.db.writes stage answer).role key = .gone)
    (faultless : NoFaults world event →
      ¬(world.lease key).Owns id ∧ world.roleOf key id ≠ .paid) :
    Simulates state key world event (world.after state id task stage answer world.db) := by
  refine .leave found ?_ gone faultless
  rw [Task.role_of_stage? running]
  exact Stage.role_ne_confirmed key _ _ stage

/-- A request that holds nothing owns nothing and is not paid. -/
theorem faultless_of_idle (found : world.tasks id = some task) (idle : task.role key = .idle) :
    ¬(world.lease key).Owns id ∧ world.roleOf key id ≠ .paid := by
  have role : world.roleOf key id = .idle := by simp [World.roleOf, found, idle]
  constructor
  · intro owns
    obtain ⟨hold, holds, _⟩ := Lease.State.owns_iff.mp owns
    rw [show (world.lease key).role id = .idle from role] at holds
    contradiction
  · simp [role]

/-- A holder whose value is no longer stored owns nothing and is not paid. -/
theorem faultless_of_missed {stamp : UInt64} (found : world.tasks id = some task)
    (held : task.held = some (key, stamp))
    (missed : world.db.valueAt key ≠ some (pendingValue stamp)) :
    ¬(world.lease key).Owns id ∧ world.roleOf key id ≠ .paid := by
  constructor
  · rwa [owns_iff_of_held found held]
  · have holds : world.roleOf key id = .holding ⟨stamp, task.since, task.turn⟩ :=
      World.roleOf_eq_holding_iff.mpr ⟨task, found, held, rfl, rfl⟩
    simp [holds]

/-! ### Control points of another key -/

theorem Stage.role_of_other {stage : Stage} (other : stage.rkey? ≠ some key) (since turn : Nat) :
    stage.role key since turn = .idle := by
  cases stage <;> simp_all [Stage.role, Stage.rkey?]

theorem Progress.role_of_other {progress : Progress} (other : progress.rkey? ≠ some key)
    (since turn : Nat) : progress.role key since turn = .idle := by
  cases progress with
  | waiting stage => exact Stage.role_of_other other since turn
  | answered rkey outcome =>
      rcases rkey with _ | rkey
      · rfl
      · rcases outcome with problem | response <;> simp_all [Progress.role, Progress.rkey?]

/-- A request that has just been verified works on no key yet. -/
theorem Stage.role_resume_verifying (request : InferenceRequest)
    (answer : Answer (Stage.verifying.query state request)) (since turn : Nat) :
    (Stage.verifying.resume state request answer).role key since turn = .idle := by
  rcases answer with e | verified <;> rfl

/-- A control point of another key leaves this one alone. -/
theorem simulates_other {stage : Stage} {reply : Reply} {next : Db}
    {answer : Answer (stage.query state task.request)} (found : world.tasks id = some task)
    (running : task.stage? = some stage) (other : stage.rkey? ≠ some key)
    (served : serveCall world.db world.clock id (stage.query state task.request) reply =
      some (answer, next)) :
    Simulates state key world event (world.after state id task stage answer next) := by
  apply simulates_unmoved found served
  · rw [Task.role_advance running, Task.role_of_stage? running, Stage.role_of_other other]
    cases works : stage.rkey? with
    | none =>
        cases stage <;> simp only [Stage.rkey?, reduceCtorEq] at works
        exact Stage.role_resume_verifying _ answer _ _
    | some rkey =>
        refine Progress.role_of_other ?_ _ _
        rw [Stage.rkey?_resume state task.request works]
        exact works ▸ other
  · intro old new query
    cases stage <;> simp only [Stage.query, verifyCall, providerCall, reduceCtorEq,
      Call.compareAndSwap.injEq] at query <;> exact other (congrArg some query.1)

/-! ### Control points of this key -/

theorem role_gone_of_answered (key : Bytes) (since turn : Nat) (problem : EncryptedError) :
    Progress.role key since turn (.answered (some key) (.error problem)) = .gone := by
  simp [Progress.role]

theorem role_reserved (key : Bytes) (stamp : UInt64) (since turn : Nat) :
    Progress.role key since turn (.waiting (.flushingReserve key stamp)) =
      .holding ⟨stamp, since, turn⟩ :=
  if_pos rfl

section Own

variable {stamp : UInt64} {reply : Reply} {next : Db}

/-- Serving the fast path of a reservation. -/
theorem simulates_reserving (found : world.tasks id = some task)
    (running : task.stage? = some (.reserving key stamp))
    {answer : Answer (Stage.query state task.request (.reserving key stamp))}
    (served : serveCall world.db world.clock id (Stage.query state task.request
      (.reserving key stamp)) reply = some (answer, next)) :
    Simulates state key world (.serve id reply)
      (world.after state id task (.reserving key stamp) answer next) := by
  have idle : task.role key = .idle := Task.role_of_stage? running
  rcases serveCall_compareAndSwap.mp served with
    ⟨rfl, isOld, rfl, rfl⟩ | ⟨rfl, _, rfl, rfl⟩ | ⟨rfl, rfl, rfl⟩ | ⟨rfl, isOld, rfl, rfl⟩
  · exact .take (attempts_of_attempt found running rfl isOld)
      (Task.role_of_resume running (.waiting (.flushingReserve key stamp)) rfl
        (role_reserved _ _ _ _))
  · exact .same (lease_same found
      (Task.role_of_resume running (.waiting (.looking key stamp)) rfl idle.symm))
  · exact simulates_gone found running
      (Task.role_of_resume running (dbError task.request key) rfl (role_gone_of_answered _ _ _ _))
      fun _ => faultless_of_idle found idle
  · exact .strand (attempts_of_attempt found running rfl isOld) False.elim
      (Task.role_of_resume running (dbError task.request key) rfl (role_gone_of_answered _ _ _ _))

/-- Serving the replacement of a stale value. -/
theorem simulates_replacing {existing : UInt64} (found : world.tasks id = some task)
    (running : task.stage? = some (.replacing key stamp existing))
    {answer : Answer (Stage.query state task.request (.replacing key stamp existing))}
    (served : serveCall world.db world.clock id (Stage.query state task.request
      (.replacing key stamp existing)) reply = some (answer, next)) :
    Simulates state key world (.serve id reply)
      (world.after state id task (.replacing key stamp existing) answer next) := by
  have idle : task.role key = .idle := Task.role_of_stage? running
  rcases serveCall_compareAndSwap.mp served with
    ⟨rfl, isOld, rfl, rfl⟩ | ⟨rfl, _, rfl, rfl⟩ | ⟨rfl, rfl, rfl⟩ | ⟨rfl, isOld, rfl, rfl⟩
  · exact .take (attempts_of_attempt found running rfl isOld)
      (Task.role_of_resume running (.waiting (.flushingReserve key stamp)) rfl
        (role_reserved _ _ _ _))
  · exact simulates_gone found running
      (Task.role_of_resume running (alreadyUsed task.request key) rfl
        (role_gone_of_answered _ _ _ _))
      fun _ => faultless_of_idle found idle
  · exact simulates_gone found running
      (Task.role_of_resume running (dbError task.request key) rfl (role_gone_of_answered _ _ _ _))
      fun _ => faultless_of_idle found idle
  · exact .strand (attempts_of_attempt found running rfl isOld) False.elim
      (Task.role_of_resume running (dbError task.request key) rfl (role_gone_of_answered _ _ _ _))

/-- Serving the flush of a reservation. -/
theorem simulates_flushingReserve (found : world.tasks id = some task)
    (running : task.stage? = some (.flushingReserve key stamp))
    {answer : Answer (Stage.query state task.request (.flushingReserve key stamp))}
    (served : serveCall world.db world.clock id (Stage.query state task.request
      (.flushingReserve key stamp)) reply = some (answer, next)) :
    Simulates state key world (.serve id reply)
      (world.after state id task (.flushingReserve key stamp) answer next) := by
  have holding : task.role key = _ := Task.role_of_stage? running
  rcases serveCall_flush.mp served with ⟨rfl, rfl, rfl⟩ | ⟨rfl, rfl, rfl⟩
  · exact .persist found
      (Task.role_of_resume running (.waiting (.calling key stamp)) rfl holding.symm)
  · exact simulates_gone found running
      (Task.role_of_resume running (dbError task.request key) rfl (role_gone_of_answered _ _ _ _))
      False.elim

/-- Serving the look at the stored value. -/
theorem simulates_looking (found : world.tasks id = some task)
    (running : task.stage? = some (.looking key stamp))
    {answer : Answer (Stage.query state task.request (.looking key stamp))}
    (served : serveCall world.db world.clock id (Stage.query state task.request
      (.looking key stamp)) reply = some (answer, next)) :
    Simulates state key world (.serve id reply)
      (world.after state id task (.looking key stamp) answer next) := by
  have idle : task.role key = .idle := Task.role_of_stage? running
  obtain ⟨rfl, ⟨rfl, rfl⟩ | ⟨rfl, rfl⟩⟩ := serveCall_get.mp served
  · have leads : Stage.afterLook task.request key stamp (world.db.valueAt key) =
        alreadyUsed task.request key ∨ ∃ existing,
          Stage.afterLook task.request key stamp (world.db.valueAt key) =
            .waiting (.checkingStale key stamp existing) := by
      unfold Stage.afterLook
      split
      next => exact .inl rfl
      next =>
        split
        next => exact .inl rfl
        next =>
          split
          next => exact .inr ⟨_, rfl⟩
          next => exact .inl rfl
    rcases leads with used | ⟨existing, stale⟩
    · exact simulates_gone found running
        (Task.role_of_resume running (alreadyUsed task.request key) (by exact used)
          (role_gone_of_answered _ _ _ _))
        fun _ => faultless_of_idle found idle
    · exact .same (lease_same found
        (Task.role_of_resume running (.waiting (.checkingStale key stamp existing))
          (by exact stale) idle.symm))
  · exact simulates_gone found running
      (Task.role_of_resume running (dbError task.request key) rfl (role_gone_of_answered _ _ _ _))
      fun _ => faultless_of_idle found idle

/-- Serving the clock to a request that found a pending value. -/
theorem simulates_checkingStale {existing : UInt64} (found : world.tasks id = some task)
    (running : task.stage? = some (.checkingStale key stamp existing))
    {answer : Answer (Stage.query state task.request (.checkingStale key stamp existing))}
    (served : serveCall world.db world.clock id (Stage.query state task.request
      (.checkingStale key stamp existing)) reply = some (answer, next)) :
    Simulates state key world (.serve id reply)
      (world.after state id task (.checkingStale key stamp existing) answer next) := by
  have idle : task.role key = .idle := Task.role_of_stage? running
  obtain ⟨rfl, rfl, rfl⟩ := serveCall_now.mp served
  by_cases stale : saturatingSub world.clock existing > state.nullifierPendingTtlMs
  · exact .same (lease_same found
      (Task.role_of_resume running (.waiting (.replacing key stamp existing)) (if_pos stale)
        idle.symm))
  · exact simulates_gone found running
      (Task.role_of_resume running (alreadyUsed task.request key) (if_neg stale)
        (role_gone_of_answered _ _ _ _))
      fun _ => faultless_of_idle found idle

/-- Serving the release of a reservation. -/
theorem simulates_releasing {problem : EncryptedError} (found : world.tasks id = some task)
    (running : task.stage? = some (.releasing key stamp problem))
    {answer : Answer (Stage.query state task.request (.releasing key stamp problem))}
    (served : serveCall world.db world.clock id (Stage.query state task.request
      (.releasing key stamp problem)) reply = some (answer, next)) :
    Simulates state key world (.serve id reply)
      (world.after state id task (.releasing key stamp problem) answer next) := by
  have held : task.held = some (key, stamp) := by rw [Task.held, running]; rfl
  rcases serveCall_compareAndSwap.mp served with
    ⟨rfl, isOld, rfl, rfl⟩ | ⟨rfl, missed, rfl, rfl⟩ | ⟨rfl, rfl, rfl⟩ | ⟨rfl, isOld, rfl, rfl⟩
  · exact .release ((owns_iff_of_held found held).mpr isOld)
      (Task.role_of_resume running (.waiting (.flushingRelease key stamp problem)) rfl
        (if_pos rfl))
  · exact simulates_gone found running
      (Task.role_of_resume running (.answered (some key) (.error problem)) rfl
        (role_gone_of_answered _ _ _ _))
      fun _ => faultless_of_missed found held missed
  · exact simulates_gone found running
      (Task.role_of_resume running (.answered (some key) (.error problem)) rfl
        (role_gone_of_answered _ _ _ _))
      False.elim
  · exact .release ((owns_iff_of_held found held).mpr isOld)
      (Task.role_of_resume running (.answered (some key) (.error problem)) rfl
        (role_gone_of_answered _ _ _ _))

/-- Serving the flush of a release. -/
theorem simulates_flushingRelease {problem : EncryptedError} (found : world.tasks id = some task)
    (running : task.stage? = some (.flushingRelease key stamp problem))
    {answer : Answer (Stage.query state task.request (.flushingRelease key stamp problem))}
    (served : serveCall world.db world.clock id (Stage.query state task.request
      (.flushingRelease key stamp problem)) reply = some (answer, next)) :
    Simulates state key world event
      (world.after state id task (.flushingRelease key stamp problem) answer next) := by
  have gone : task.role key = .gone := (Task.role_of_stage? running).trans (if_pos rfl)
  refine simulates_unmoved found served ?_ fun _ _ query => by contradiction
  exact Task.role_of_resume running (.answered (some key) (.error problem)) rfl
    ((role_gone_of_answered _ _ _ _).trans gone.symm)

/-- Serving the mark of a reservation. -/
theorem simulates_marking {response : ProviderChatCompletionResult} {spentStamp : UInt64}
    (found : world.tasks id = some task)
    (running : task.stage? = some (.marking key stamp response spentStamp))
    {answer : Answer (Stage.query state task.request (.marking key stamp response spentStamp))}
    (served : serveCall world.db world.clock id (Stage.query state task.request
      (.marking key stamp response spentStamp)) reply = some (answer, next)) :
    Simulates state key world (.serve id reply)
      (world.after state id task (.marking key stamp response spentStamp) answer next) := by
  have held : task.held = some (key, stamp) := by rw [Task.held, running]; rfl
  rcases serveCall_compareAndSwap.mp served with
    ⟨rfl, isOld, rfl, rfl⟩ | ⟨rfl, missed, rfl, rfl⟩ | ⟨rfl, rfl, rfl⟩ | ⟨rfl, isOld, rfl, rfl⟩
  · exact .settle ((owns_iff_of_held found held).mpr isOld)
      (Task.role_of_resume running (.waiting (.flushingMark key response)) rfl (if_pos rfl))
  · exact simulates_gone found running
      (Task.role_of_resume running (dbError task.request key) rfl (role_gone_of_answered _ _ _ _))
      fun _ => faultless_of_missed found held missed
  · exact simulates_gone found running
      (Task.role_of_resume running (dbError task.request key) rfl (role_gone_of_answered _ _ _ _))
      False.elim
  · exact .settleLost ((owns_iff_of_held found held).mpr isOld) False.elim
      (Task.role_of_resume running (dbError task.request key) rfl (role_gone_of_answered _ _ _ _))

/-- Serving the flush of a mark. -/
theorem simulates_flushingMark {response : ProviderChatCompletionResult}
    (found : world.tasks id = some task)
    (running : task.stage? = some (.flushingMark key response))
    {answer : Answer (Stage.query state task.request (.flushingMark key response))}
    (served : serveCall world.db world.clock id (Stage.query state task.request
      (.flushingMark key response)) reply = some (answer, next)) :
    Simulates state key world (.serve id reply)
      (world.after state id task (.flushingMark key response) answer next) := by
  have paid : task.role key = .paid := (Task.role_of_stage? running).trans (if_pos rfl)
  rcases serveCall_flush.mp served with ⟨rfl, rfl, rfl⟩ | ⟨rfl, rfl, rfl⟩
  · exact .confirm (by simpa [World.lease, World.roleOf, found] using paid)
      (Task.role_of_resume running (.answered (some key) (.ok response)) rfl (if_pos rfl))
  · exact simulates_gone found running
      (Task.role_of_resume running (dbError task.request key) rfl (role_gone_of_answered _ _ _ _))
      False.elim

/-- Serving a control point of the key. -/
theorem simulates_own {stage : Stage} {answer : Answer (stage.query state task.request)}
    (found : world.tasks id = some task) (running : task.stage? = some stage)
    (works : stage.rkey? = some key)
    (served : serveCall world.db world.clock id (stage.query state task.request) reply =
      some (answer, next)) :
    Simulates state key world (.serve id reply)
      (world.after state id task stage answer next) := by
  have role : task.role key = _ := Task.role_of_stage? running
  cases stage with
  | verifying => contradiction
  | stamping rkey =>
      cases works
      refine simulates_unmoved found served ?_ fun _ _ query => by contradiction
      exact Task.role_of_resume running (.waiting (.reserving key answer)) rfl role.symm
  | reserving rkey stamp =>
      cases works
      exact simulates_reserving found running served
  | flushingReserve rkey stamp =>
      cases works
      exact simulates_flushingReserve found running served
  | looking rkey stamp =>
      cases works
      exact simulates_looking found running served
  | checkingStale rkey stamp existing =>
      cases works
      exact simulates_checkingStale found running served
  | replacing rkey stamp existing =>
      cases works
      exact simulates_replacing found running served
  | calling rkey stamp =>
      cases works
      refine simulates_unmoved found served ?_ fun _ _ query => by contradiction
      cases read : readProviderAnswer state.library task.request.requestId answer with
      | error problem =>
          exact Task.role_of_resume running (.waiting (.releasing key stamp problem))
            (by simp [Stage.resume, read]) role.symm
      | ok response =>
          exact Task.role_of_resume running (.waiting (.stampingSpent key stamp response))
            (by simp [Stage.resume, read]) role.symm
  | releasing rkey stamp problem =>
      cases works
      exact simulates_releasing found running served
  | flushingRelease rkey stamp problem =>
      cases works
      exact simulates_flushingRelease found running served
  | stampingSpent rkey stamp response =>
      cases works
      refine simulates_unmoved found served ?_ fun _ _ query => by contradiction
      exact Task.role_of_resume running (.waiting (.marking key stamp response answer)) rfl
        role.symm
  | marking rkey stamp response spentStamp =>
      cases works
      exact simulates_marking found running served
  | flushingMark rkey response =>
      cases works
      exact simulates_flushingMark found running served

end Own

end Steps

/-! ## The simulation -/

section Simulation

variable {state : AppState} {key : Bytes} {world target : World}

theorem Task.role_arrived (envelope : Envelope) (request : InferenceRequest) :
    (Task.arrived envelope request).role key = .idle := by
  simp only [Task.role, Task.arrived, Progress.start]
  cases checkRequest envelope request <;> rfl

theorem simulates_arrive {id : Nat} {envelope : Envelope} {request : InferenceRequest}
    (stepped : World.step state world (.arrive id envelope request) = some target) :
    Simulates state key world (.arrive id envelope request) target := by
  obtain ⟨absent, ⟨⟩⟩ := Option.ite_none_right_eq_some.mp stepped
  have idle : world.roleOf key id = .idle := by
    simp [World.roleOf, Option.isNone_iff_eq_none.mp absent]
  refine .same ?_
  rw [lease_role, Task.role_arrived, ← idle, Function.update_eq_self]
  rfl

theorem simulates_cancel {id : Nat} (stepped : World.step state world (.cancel id) = some target) :
    Simulates state key world (.cancel id) target := by
  obtain ⟨task, found, rfl⟩ := Option.map_eq_some_iff.mp stepped
  have role : world.roleOf key id = task.role key := by simp [World.roleOf, found]
  have stopped := Task.role_lose key task
  cases before : task.role key with
  | idle => exact .same (lease_same found (by rw [stopped, before]; rfl))
  | confirmed => exact .same (lease_same found (by rw [stopped, before]; rfl))
  | gone => exact .same (lease_same found (by rw [stopped, before]; rfl))
  | holding hold =>
      exact .leave found (by simp [before]) (by rw [stopped, before]; rfl) False.elim
  | paid => exact .leave found (by simp [before]) (by rw [stopped, before]; rfl) False.elim

theorem simulates_crash {age : Nat} (stepped : World.step state world (.crash age) = some target) :
    Simulates state key world (.crash age) target := by
  simp only [World.step] at stepped
  split at stepped
  next => contradiction
  next store unflushed kept =>
    cases stepped
    refine .faulty (.crash age) False.elim ?_ trivial trivial
    have keptEntries : ((world.lease key).entry :: (world.lease key).past).drop age =
        entryOf key store :: unflushed.map (entryOf key) := by
      have mapped := congrArg (List.map (entryOf key)) kept
      rwa [List.map_drop, List.map_cons, List.map_cons] at mapped
    have roles : (fun id => ((world.lease key).role id).stop) =
        World.roleOf key ⟨fun id => (world.tasks id).map Task.lose,
          ⟨store, unflushed, world.db.writes⟩, world.clock⟩ := by
      funext id
      simp only [World.lease, World.roleOf]
      cases world.tasks id with
      | none => rfl
      | some task => simp
    simp only [Lease.step, keptEntries, roles]
    rfl

/-- Every step of the world is, on every key, a step of the lease or none. -/
theorem lease_simulates {event : WorldEvent}
    (stepped : World.step state world event = some target) :
    Simulates state key world event target := by
  cases event with
  | arrive id envelope request => exact simulates_arrive stepped
  | serve id reply =>
      obtain ⟨task, stage, found, running, answer, db, served, rfl⟩ :=
        World.serve_eq_some_iff.mp stepped
      by_cases works : stage.rkey? = some key
      · exact simulates_own found running works served
      · exact simulates_other found running works served
  | tick clock =>
      cases stepped
      exact .inr ⟨.tick clock.toNat, rfl, fun _ steady => UInt64.le_iff_toNat_le.mp steady,
        fun _ => trivial, fun _ => trivial⟩
  | cancel id => exact simulates_cancel stepped
  | crash age => exact simulates_crash stepped

/-! ## What the lease view inherits -/

/-- What the store holds at the start, on one key. -/
def InitialSlot (initial : Store → Prop) (key : Bytes) (slot : Lease.Slot UInt64) : Prop :=
  ∃ store, initial store ∧ (entryOf key store).slot = slot

theorem lease_initial {initial : Store → Prop}
    (isInitial : (World.system state initial).init world) :
    (Lease.system Nat (InitialSlot initial key)).init (world.lease key) := by
  obtain ⟨store, empty⟩ := isInitial
  refine ⟨⟨world.db.store, store, rfl⟩, ?_⟩
  intro id
  simp [World.lease, World.roleOf, empty id]

/-- On every key a run is a run of the lease. -/
theorem reachable_lease (key : Bytes) {initial : Store → Prop} {allowed : World → WorldEvent → Prop}
    (reachable : (World.system state initial).Reachable allowed world) :
    (Lease.system Nat (InitialSlot initial key)).Reachable (fun _ _ => True) (world.lease key) := by
  refine reachable.simulated (World.lease key) (fun _ => lease_initial) ?_
  intro world event target _ _ stepped
  rcases lease_simulates stepped with same | ⟨label, abstractly, _⟩
  · exact .inl same
  · exact .inr ⟨label, trivial, abstractly⟩

/-- A run without faults is one of the lease. -/
theorem reachable_lease_faultless (key : Bytes) {initial : Store → Prop}
    (reachable : (World.system state initial).Reachable NoFaults world) :
    (Lease.system Nat (InitialSlot initial key)).Reachable Lease.Faultless (world.lease key) := by
  refine reachable.simulated (World.lease key) (fun _ => lease_initial) ?_
  intro world event target _ noFaults stepped
  rcases lease_simulates stepped with same | ⟨label, abstractly, _, faultless, _⟩
  · exact .inl same
  · exact .inr ⟨label, faultless noFaults, abstractly⟩

/-- A run that keeps pending values apart is one of the lease. -/
theorem reachable_lease_apart (key : Bytes) {initial : Store → Prop}
    {allowed : World → WorldEvent → Prop}
    (isApart : ∀ world event, allowed world event → Apart world event)
    (reachable : (World.system state initial).Reachable allowed world) :
    (Lease.system Nat (InitialSlot initial key)).Reachable Lease.Apart (world.lease key) := by
  refine reachable.simulated (World.lease key) (fun _ => lease_initial) ?_
  intro world event target _ isAllowed stepped
  rcases lease_simulates stepped with same | ⟨label, abstractly, _, _, apart⟩
  · exact .inl same
  · exact .inr ⟨label, apart (isApart _ _ isAllowed), abstractly⟩

/-! ## Stale values are seen before they are replaced -/

/-- Only a check against the clock leads to a replacement. -/
theorem stale_of_resume {task : Task} {stage : Stage} {reply : Reply} {db next : Db}
    {clock : UInt64} {id : Nat}
    {answer : Answer (stage.query state task.request)} {rkey : Bytes} {stamp existing : UInt64}
    (served : serveCall db clock id (stage.query state task.request) reply =
      some (answer, next))
    (leads : stage.resume state task.request answer = .waiting (.replacing rkey stamp existing)) :
    deadline state existing < clock.toNat := by
  cases stage with
  | checkingStale ownKey ownStamp ownExisting =>
      obtain ⟨rfl, rfl, rfl⟩ := serveCall_now.mp served
      simp only [Stage.resume] at leads
      split at leads
      next stale =>
        cases leads
        exact add_lt_of_stale stale
      next => cases leads
  | looking ownKey ownStamp =>
      rcases answer with e | stored
      · cases leads
      · simp only [Stage.resume, Stage.afterLook] at leads
        split at leads
        next => cases leads
        next =>
          split at leads
          next => cases leads
          next => split at leads <;> cases leads
  | calling ownKey ownStamp =>
      simp only [Stage.resume] at leads
      split at leads <;> cases leads
  | verifying => rcases answer with e | verified <;> cases leads
  | stamping ownKey => cases leads
  | stampingSpent ownKey ownStamp response => cases leads
  | flushingRelease ownKey ownStamp problem => cases leads
  | flushingReserve ownKey ownStamp => rcases answer with e | _ <;> cases leads
  | flushingMark ownKey response => rcases answer with e | _ <;> cases leads
  | reserving ownKey ownStamp => rcases answer with e | _ | _ <;> cases leads
  | replacing ownKey ownStamp ownExisting => rcases answer with e | _ | _ <;> cases leads
  | releasing ownKey ownStamp problem => rcases answer with e | _ | _ <;> cases leads
  | marking ownKey ownStamp response spentStamp => rcases answer with e | _ | _ <;> cases leads

theorem Task.stage?_lose {task : Task} : task.lose.stage? = none := by
  obtain ⟨envelope, request, events, progress, lost, since, turn⟩ := task
  cases progress <;> cases lost <;> rfl

theorem Task.stage?_arrived (envelope : Envelope) (request : InferenceRequest) {stage : Stage}
    (running : (Task.arrived envelope request).stage? = some stage) : stage = .verifying := by
  simp only [Task.stage?, Task.arrived, Progress.start] at running
  cases checked : checkRequest envelope request <;> simp_all

theorem World.StaleChecked.preserved {event : WorldEvent} (checked : world.StaleChecked state)
    (steady : Steady world event) (stepped : World.step state world event = some target) :
    target.StaleChecked state := by
  cases event with
  | arrive id envelope request =>
      obtain ⟨_, ⟨⟩⟩ := Option.ite_none_right_eq_some.mp stepped
      intro other task rkey stamp existing found running
      simp only [Function.update_apply] at found
      split at found
      next =>
        cases found
        have := Task.stage?_arrived envelope request running
        contradiction
      next => exact checked other task rkey stamp existing found running
  | serve id reply =>
      obtain ⟨task, stage, found, _, answer, db, served, rfl⟩ :=
        World.serve_eq_some_iff.mp stepped
      intro other task rkey stamp existing foundAfter runningAfter
      simp only [Function.update_apply] at foundAfter
      split at foundAfter
      next =>
        cases foundAfter
        exact stale_of_resume served (Task.stage?_eq_some_iff.mp runningAfter).2
      next => exact checked other task rkey stamp existing foundAfter runningAfter
  | tick clock =>
      cases stepped
      intro id task rkey stamp existing found running
      exact Nat.lt_of_lt_of_le (checked id task rkey stamp existing found running)
        (UInt64.le_iff_toNat_le.mp steady)
  | cancel id =>
      obtain ⟨task, found, rfl⟩ := Option.map_eq_some_iff.mp stepped
      intro other task rkey stamp existing foundAfter running
      simp only [Function.update_apply] at foundAfter
      split at foundAfter
      next =>
        cases foundAfter
        rw [Task.stage?_lose] at running
        contradiction
      next => exact checked other task rkey stamp existing foundAfter running
  | crash age =>
      simp only [World.step] at stepped
      split at stepped
      next => contradiction
      next =>
        cases stepped
        intro id task rkey stamp existing found running
        obtain ⟨before, _, rfl⟩ := Option.map_eq_some_iff.mp found
        rw [Task.stage?_lose] at running
        contradiction

/-- A run with a steady clock is a timed run of the lease. -/
theorem reachable_lease_timed (key : Bytes) {initial : Store → Prop}
    {allowed : World → WorldEvent → Prop}
    (isSteady : ∀ world event, allowed world event → Steady world event)
    (reachable : (World.system state initial).Reachable allowed world) :
    (Lease.system Nat (InitialSlot initial key)).Reachable (Lease.Timed (deadline state))
      (world.lease key) := by
  have checked : ∀ world, (World.system state initial).Reachable allowed world →
      world.StaleChecked state := by
    intro world reached
    apply reached.invariant
    · rintro world ⟨_, empty⟩ id task rkey stamp existing found
      rw [empty id] at found
      contradiction
    · intro world event target checked isAllowed stepped
      exact checked.preserved (isSteady _ _ isAllowed) stepped
  refine reachable.simulated (World.lease key) (fun _ => lease_initial) ?_
  intro world event target reached isAllowed stepped
  rcases lease_simulates stepped with same | ⟨label, abstractly, timed, _⟩
  · exact .inl same
  · exact .inr ⟨label, timed (checked world reached) (isSteady _ _ isAllowed), abstractly⟩

end Simulation

end ZkLlmGateway.Gateway
