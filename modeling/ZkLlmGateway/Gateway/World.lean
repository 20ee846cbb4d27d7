import ZkLlmGateway.Gateway.Stage
import ZkLlmGateway.Transition.Lease

/-!
# Many handlers over one store

Any number of requests run at once.  One event lets one handler take one step:
its pending call is served by the store, the clock or the outside world.  The
store applies a compare-and-swap at once and keeps the stores since the last
flush, because a crash may bring back any of them.  Handlers may be cancelled,
and a crash loses all that have not answered.
-/

namespace ZkLlmGateway.Gateway

open ZkLlmGateway.Encoding ZkLlmGateway.Common ZkLlmGateway.Interaction ZkLlmGateway.Transition

/-! ## The store -/

/-- A stored value and the request that wrote it.  The handlers see only the
value. -/
structure StoredValue where
  value : Bytes
  writer : Option Nat

abbrev Store := Bytes → Option StoredValue

/-- The current store, the stores before it since the last flush, newest
first, and the number of writes. -/
structure Db where
  store : Store
  unflushed : List Store
  writes : Nat

namespace Db

def valueAt (db : Db) (key : Bytes) : Option Bytes :=
  (db.store key).map StoredValue.value

def write (db : Db) (id : Nat) (key : Bytes) (new : Option Bytes) : Db where
  store := Function.update db.store key (new.map fun value => ⟨value, some id⟩)
  unflushed := db.store :: db.unflushed
  writes := db.writes + 1

def flushed (db : Db) : Db :=
  { db with unflushed := [] }

end Db

/-! ## Requests -/

/-- A request in progress or answered.  `events`, `since` and `turn` are
history: its calls so far, and the clock and the number of writes when its
reservation succeeded. -/
structure Task where
  envelope : Envelope
  request : InferenceRequest
  events : List (Program.Event Call Answer)
  progress : Progress
  /-- Cancelled, or lost in a crash. -/
  lost : Bool
  since : Nat
  turn : Nat

namespace Task

/-- A request that has just been decrypted. -/
def arrived (envelope : Envelope) (request : InferenceRequest) : Task where
  envelope := envelope
  request := request
  events := []
  progress := .start request envelope
  lost := false
  since := 0
  turn := 0

/-- The control point of a request that is still running. -/
def stage? (task : Task) : Option Stage :=
  match task.lost, task.progress with
  | false, .waiting stage => some stage
  | _, _ => none

/-- A request that has not answered is lost. -/
def lose (task : Task) : Task :=
  match task.progress with
  | .waiting _ => { task with lost := true }
  | .answered _ _ => task

end Task

/-- The requests so far, the store and the wall clock. -/
structure World where
  tasks : Nat → Option Task
  db : Db
  clock : UInt64

/-! ## Steps -/

/-- How a pending call is served. -/
inductive Reply
  | works
  | fails
  /-- The store applies the write and then reports an error. -/
  | failsAfter
  | verified (answer : Except ZkVerifyError VerifiedTicket)
  | replied (answer : HttpAnswer)

/-- One step of the whole. -/
inductive WorldEvent
  | arrive (id : Nat) (envelope : Envelope) (request : InferenceRequest)
  | serve (id : Nat) (reply : Reply)
  | tick (clock : UInt64)
  | cancel (id : Nat)
  /-- Restart with the store as it was `age` writes ago. -/
  | crash (age : Nat)

/-- The answer to a call and the store after it. -/
def serveCall (db : Db) (clock : UInt64) (id : Nat) :
    (query : Call) → Reply → Option (Answer query × Db)
  | .verify _ _, .verified answer => some (answer, db)
  | .post _ _ _, .replied answer => some (answer, db)
  | .now, .works => some (clock, db)
  | .compareAndSwap key old new, .works =>
      if db.valueAt key = old then some (.ok true, db.write id key new) else some (.ok false, db)
  | .compareAndSwap _ _ _, .fails => some (.error .failed, db)
  | .compareAndSwap key old new, .failsAfter =>
      if db.valueAt key = old then some (.error .failed, db.write id key new) else none
  | .get key, .works => some (.ok (db.valueAt key), db)
  | .get _, .fails => some (.error .failed, db)
  | .flush, .works => some (.ok (), db.flushed)
  | .flush, .fails => some (.error .failed, db)
  | _, _ => none

/-- The reservation has just succeeded. -/
def Progress.reserved : Progress → Bool
  | .waiting (.flushingReserve _ _) => true
  | _ => false

/-- The request after an answer. -/
def Task.advance (state : AppState) (task : Task) (clock writes : Nat) (stage : Stage)
    (answer : Answer (stage.query state task.request)) : Task :=
  let next := stage.resume state task.request answer
  { task with
    events := task.events ++ [⟨_, answer⟩]
    progress := next
    since := if next.reserved then clock else task.since
    turn := if next.reserved then writes else task.turn }

namespace World

/-- Serve the pending call of a request. -/
def serve (state : AppState) (world : World) (id : Nat) (task : Task) (stage : Stage)
    (reply : Reply) : Option World :=
  (serveCall world.db world.clock id (stage.query state task.request) reply).map fun served =>
    { world with
      tasks := Function.update world.tasks id
        (some (task.advance state world.clock.toNat world.db.writes stage served.1))
      db := served.2 }

def step (state : AppState) (world : World) : WorldEvent → Option World
  | .arrive id envelope request =>
      if (world.tasks id).isNone then
        some { world with
          tasks := Function.update world.tasks id (some (.arrived envelope request)) }
      else none
  | .serve id reply =>
      (world.tasks id).bind fun task => task.stage?.bind fun stage =>
        world.serve state id task stage reply
  | .tick clock => some { world with clock := clock }
  | .cancel id =>
      (world.tasks id).map fun task =>
        { world with tasks := Function.update world.tasks id (some task.lose) }
  | .crash age =>
      match (world.db.store :: world.db.unflushed).drop age with
      | [] => none
      | store :: unflushed => some {
          tasks := fun id => (world.tasks id).map Task.lose
          db := { store := store, unflushed := unflushed, writes := world.db.writes }
          clock := world.clock }

/-- Runs start without requests, with a store in one of the `initial` states. -/
def system (state : AppState) (initial : Store → Prop) : System World WorldEvent where
  init world := initial world.db.store ∧ ∀ id, world.tasks id = none
  step := World.step state

end World

/-! ## Schedules -/

/-- The clock never steps back. -/
def Steady (world : World) : WorldEvent → Prop
  | .tick clock => world.clock ≤ clock
  | _ => True

/-- The store never fails, and every handler runs to completion. -/
def NoFaults (_ : World) : WorldEvent → Prop
  | .serve _ .fails | .serve _ .failsAfter | .cancel _ | .crash _ => False
  | _ => True

/-! ## What a step does -/

theorem World.serve_eq_some_iff {state : AppState} {world target : World} {id : Nat}
    {reply : Reply} :
    World.step state world (.serve id reply) = some target ↔
      ∃ task stage, world.tasks id = some task ∧ task.stage? = some stage ∧
        ∃ answer db, serveCall world.db world.clock id (stage.query state task.request) reply =
            some (answer, db) ∧
          target = {
            tasks := Function.update world.tasks id
              (some (task.advance state world.clock.toNat world.db.writes stage answer))
            db := db
            clock := world.clock } := by
  simp only [World.step, World.serve, Option.bind_eq_some_iff, Option.map_eq_some_iff]
  constructor
  · rintro ⟨task, found, stage, running, ⟨answer, db⟩, served, rfl⟩
    exact ⟨task, stage, found, running, answer, db, served, rfl⟩
  · rintro ⟨task, stage, found, running, answer, db, served, rfl⟩
    exact ⟨task, found, stage, running, ⟨answer, db⟩, served, rfl⟩

theorem Task.stage?_eq_some_iff {task : Task} {stage : Stage} :
    task.stage? = some stage ↔ task.lost = false ∧ task.progress = .waiting stage := by
  unfold Task.stage?
  cases task.lost <;> cases task.progress <;> simp

/-- How a compare-and-swap is served. -/
theorem serveCall_compareAndSwap {db next : Db} {clock : UInt64} {id : Nat} {key : Bytes}
    {old new : Option Bytes} {reply : Reply} {answer : Except StoreError Bool} :
    serveCall db clock id (.compareAndSwap key old new) reply = some (answer, next) ↔
      (reply = .works ∧ db.valueAt key = old ∧ answer = .ok true ∧ next = db.write id key new) ∨
      (reply = .works ∧ db.valueAt key ≠ old ∧ answer = .ok false ∧ next = db) ∨
      (reply = .fails ∧ answer = .error .failed ∧ next = db) ∨
      (reply = .failsAfter ∧ db.valueAt key = old ∧ answer = .error .failed ∧
        next = db.write id key new) := by
  cases reply with
  | works =>
      by_cases found : db.valueAt key = old <;> simp [serveCall, found, eq_comm]
  | failsAfter =>
      by_cases found : db.valueAt key = old <;> simp [serveCall, found, eq_comm]
  | fails => simp [serveCall, eq_comm]
  | verified _ => simp [serveCall]
  | replied _ => simp [serveCall]

theorem serveCall_get {db next : Db} {clock : UInt64} {id : Nat} {key : Bytes} {reply : Reply}
    {answer : Except StoreError (Option Bytes)} :
    serveCall db clock id (.get key) reply = some (answer, next) ↔
      next = db ∧ ((reply = .works ∧ answer = .ok (db.valueAt key)) ∨
        (reply = .fails ∧ answer = .error .failed)) := by
  cases reply <;> simp [serveCall, eq_comm, and_comm]

theorem serveCall_flush {db next : Db} {clock : UInt64} {id : Nat} {reply : Reply}
    {answer : Except StoreError Unit} :
    serveCall db clock id .flush reply = some (answer, next) ↔
      (reply = .works ∧ answer = .ok () ∧ next = db.flushed) ∨
      (reply = .fails ∧ answer = .error .failed ∧ next = db) := by
  cases reply <;> simp [serveCall, eq_comm]

theorem serveCall_now {db next : Db} {clock answer : UInt64} {id : Nat} {reply : Reply} :
    serveCall db clock id .now reply = some (answer, next) ↔
      reply = .works ∧ answer = clock ∧ next = db := by
  cases reply <;> simp [serveCall, eq_comm]

/-- A served call leaves the store, flushes it, or writes the key it names. -/
theorem serveCall_effect {db next : Db} {clock : UInt64} {id : Nat} {query : Call} {reply : Reply}
    {answer : Answer query} (served : serveCall db clock id query reply = some (answer, next)) :
    next = db ∨ next = db.flushed ∨
      ∃ key old new, query = .compareAndSwap key old new ∧ next = db.write id key new := by
  cases query with
  | compareAndSwap key old new =>
      rcases serveCall_compareAndSwap.mp served with
        ⟨_, _, _, rfl⟩ | ⟨_, _, _, rfl⟩ | ⟨_, _, rfl⟩ | ⟨_, _, _, rfl⟩
      · exact .inr (.inr ⟨key, old, new, rfl, rfl⟩)
      · exact .inl rfl
      · exact .inl rfl
      · exact .inr (.inr ⟨key, old, new, rfl, rfl⟩)
  | flush =>
      rcases serveCall_flush.mp served with ⟨_, _, rfl⟩ | ⟨_, _, rfl⟩
      · exact .inr (.inl rfl)
      · exact .inl rfl
  | get key => exact .inl (serveCall_get.mp served).1
  | now => exact .inl (serveCall_now.mp served).2.2
  | verify ticket context =>
      cases reply <;> simp_all [serveCall]
  | post url bearer body =>
      cases reply <;> simp_all [serveCall]
  | fillNonce => cases reply <;> contradiction

/-! ## What holds of every request -/

def World.All (holds : Task → Prop) (world : World) : Prop :=
  ∀ id task, world.tasks id = some task → holds task

/-- A property of requests that holds on arrival and outlasts every answer and
every loss holds of all requests in every run. -/
theorem all_of_reachable {state : AppState} {initial : Store → Prop}
    {allowed : World → WorldEvent → Prop} {holds : Task → Prop}
    (arrived : ∀ envelope request, holds (.arrived envelope request))
    (advance : ∀ task stage clock writes (answer : Answer (stage.query state task.request)),
      holds task → task.progress = .waiting stage →
      holds (task.advance state clock writes stage answer))
    (lose : ∀ task, holds task → holds task.lose) {world : World}
    (reachable : (World.system state initial).Reachable allowed world) : world.All holds := by
  apply reachable.invariant
  · rintro world ⟨_, empty⟩ id task found
    rw [empty id] at found
    contradiction
  · intro world event target all _ stepped
    cases event with
    | arrive id envelope request =>
        obtain ⟨_, ⟨⟩⟩ := Option.ite_none_right_eq_some.mp stepped
        intro other task found
        simp only [Function.update_apply] at found
        split at found
        next =>
          cases found
          exact arrived envelope request
        next => exact all other task found
    | serve id reply =>
        obtain ⟨task, stage, found, running, answer, db, _, rfl⟩ :=
          World.serve_eq_some_iff.mp stepped
        intro other served foundServed
        simp only [Function.update_apply] at foundServed
        split at foundServed
        next =>
          cases foundServed
          exact advance task stage _ _ answer (all id task found)
            (Task.stage?_eq_some_iff.mp running).2
        next => exact all other served foundServed
    | tick clock =>
        cases stepped
        exact all
    | cancel id =>
        obtain ⟨task, found, rfl⟩ := Option.map_eq_some_iff.mp stepped
        intro other lost foundLost
        simp only [Function.update_apply] at foundLost
        split at foundLost
        next =>
          cases foundLost
          exact lose task (all id task found)
        next => exact all other lost foundLost
    | crash age =>
        simp only [World.system, World.step] at stepped
        split at stepped
        next => contradiction
        next =>
          cases stepped
          intro other lost foundLost
          obtain ⟨task, found, rfl⟩ := Option.map_eq_some_iff.mp foundLost
          exact lose task (all other task found)

/-- What a request has called so far is what the code of its handler calls, and
its control point is what remains of that code. -/
def Task.FollowsCode (state : AppState) (task : Task) : Prop :=
  Program.Follows (inferResult state task.envelope task.request) task.events
    (task.progress.program state task.request)

/-- In every run every request follows the code. -/
theorem followsCode_of_reachable {state : AppState} {initial : Store → Prop}
    {allowed : World → WorldEvent → Prop} {world : World}
    (reachable : (World.system state initial).Reachable allowed world) :
    world.All (Task.FollowsCode state) := by
  refine all_of_reachable ?_ ?_ ?_ reachable
  · intro envelope request
    unfold Task.FollowsCode
    simp only [Task.arrived, program_inferResult]
    exact .start
  · intro task stage clock writes answer follows waits
    unfold Task.FollowsCode at follows
    rw [waits, Progress.program, program_waiting] at follows
    exact .next answer follows
  · intro task follows
    unfold Task.lose
    split <;> exact follows

/-- The replay key the verifier's answer resolves a request to. -/
def Task.resolvedKey (state : AppState) (task : Task) : Option Bytes :=
  match task.events.head? with
  | some ⟨.verify _ _, .ok verified⟩ =>
      some (ticketKey state.library task.request.ticket verified)
  | _ => none

/-- A request works on the key it was resolved to, and calls the verifier
first. -/
def Task.WorksOnKey (state : AppState) (task : Task) : Prop :=
  task.progress.rkey? = task.resolvedKey state ∧
    (task.progress = .waiting .verifying → task.events = [])

/-- Later calls do not change what a request was resolved to. -/
theorem Task.resolvedKey_advance {state : AppState} {task : Task} {rkey : Bytes}
    (resolved : task.resolvedKey state = some rkey) (clock writes : Nat) (stage : Stage)
    (answer : Answer (stage.query state task.request)) :
    (task.advance state clock writes stage answer).resolvedKey state = some rkey := by
  obtain ⟨envelope, request, events, progress, lost, since, turn⟩ := task
  cases events with
  | nil => contradiction
  | cons event rest => exact resolved

theorem worksOnKey_of_reachable {state : AppState} {initial : Store → Prop}
    {allowed : World → WorldEvent → Prop} {world : World}
    (reachable : (World.system state initial).Reachable allowed world) :
    world.All (Task.WorksOnKey state) := by
  refine all_of_reachable ?_ ?_ ?_ reachable
  · intro envelope request
    refine ⟨?_, fun _ => rfl⟩
    simp only [Task.arrived, Progress.start, Task.resolvedKey]
    cases checkRequest envelope request <;> rfl
  · rintro task stage clock writes answer ⟨resolved, first⟩ waits
    rw [waits] at resolved
    cases works : stage.rkey? with
    | none =>
        cases stage <;> simp only [Stage.rkey?, reduceCtorEq] at works
        constructor
        · simp only [Task.advance, Task.resolvedKey, first waits, List.nil_append]
          rcases answer with e | verified <;> rfl
        · rcases answer with e | verified <;> simp [Task.advance, Stage.resume]
    | some rkey =>
        have kept := Stage.rkey?_resume state task.request works answer
        constructor
        · rw [Task.resolvedKey_advance (resolved.symm.trans works)]
          exact kept
        · intro back
          have changed : stage.resume state task.request answer = .waiting .verifying := back
          rw [changed] at kept
          contradiction
  · rintro task ⟨resolved, first⟩
    unfold Task.lose
    split
    next => exact ⟨resolved, first⟩
    next => exact ⟨resolved, first⟩

end ZkLlmGateway.Gateway
