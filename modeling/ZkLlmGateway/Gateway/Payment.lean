import ZkLlmGateway.Gateway.Simulation

/-!
# No double spend, and an exact store at rest

Whatever the schedule, at most one request per replay key is answered with a
provider response; and without faults the store says exactly which keys were
paid, as soon as no request works on them.
-/

namespace ZkLlmGateway.Gateway

open ZkLlmGateway.Encoding ZkLlmGateway.Common ZkLlmGateway.Interaction ZkLlmGateway.Transition

/-! ## A small gateway

The runs below, and those of the reservations, are computed on it. -/

/-- A gateway whose library functions are the simplest there are. -/
def plainState : AppState where
  library := {
    sha256 := id
    shake256 := fun _ => Block.replicate 48 0
    readJson := fun _ => some .null
    readRequest := fun _ => .error [] }
  primitives := .transparent
  aead := .transparent _
  keypair := ⟨Block.replicate 32 1⟩
  providerBaseUrl := text "http://localhost:8000"
  providerApiKey := none
  nullifierPendingTtlMs := 10

/-- A request without messages, in the smallest class. -/
def plainRequest : InferenceRequest where
  requestId := Block.replicate 16 0
  model := text "m"
  messages := []
  maxTokens := none
  temperature := none
  stream := none
  tokenClass := .c256
  ticket := { commitmentRoot := [], nullifier := [7], tokenClass := .c256, proof := [] }
  providerOptions := []

def plainEnvelope : Envelope where
  version := Envelope.VERSION
  tokenClass := .c256
  requestId := Block.replicate 16 0
  clientNonceB64 := []
  kemPubB64 := []
  nonceB64 := []
  ciphertextB64 := []

def emptyWorld : World where
  tasks _ := none
  db := ⟨fun _ => none, [], 0⟩
  clock := 100

/-- A request arrives, is verified and stamped, and reserves an absent key. -/
def reserves (id : Nat) : List WorldEvent :=
  [.arrive id plainEnvelope plainRequest, .serve id (.verified (.ok ⟨.c256, []⟩)),
    .serve id .works, .serve id .works, .serve id .works]

/-- The provider answers, and the reservation is marked. -/
def succeeds (id : Nat) : List WorldEvent :=
  [.serve id (.replied (.response 200 [])), .serve id .works, .serve id .works, .serve id .works]

/-- The provider cannot be reached, and the reservation is released. -/
def releases (id : Nat) : List WorldEvent :=
  [.serve id (.replied .sendFailed), .serve id .works, .serve id .works]

/-! ## Answers and keys -/

/-- The request ended with a payload of kind `ok`. -/
def Task.AnswersOk (task : Task) : Prop :=
  ∃ rkey outcome, task.progress = .answered rkey outcome ∧
    (resultPayload task.request outcome).isOk = true

/-- The request `id` resolved to `key` and ended with a payload of kind `ok`. -/
def World.AnswersOk (state : AppState) (world : World) (key : Bytes) (id : Nat) : Prop :=
  ∃ task, world.tasks id = some task ∧ task.resolvedKey state = some key ∧ task.AnswersOk

/-- The request `id` resolved to `key` and is still running. -/
def World.InFlight (state : AppState) (world : World) (key : Bytes) (id : Nat) : Prop :=
  ∃ task stage, world.tasks id = some task ∧ task.resolvedKey state = some key ∧
    task.stage? = some stage

/-- The key holds a spent value. -/
def World.Spent (world : World) (key : Bytes) : Prop :=
  ∃ stamp, world.db.valueAt key = some (spentValue stamp)

theorem resultPayload_isOk_iff {req : InferenceRequest} {outcome : InferOutcome} :
    (resultPayload req outcome).isOk = true ↔ ∃ response, outcome = .ok response := by
  cases outcome <;> simp [resultPayload, GatewayEnvelopePayload.isOk]

section Runs

variable {state : AppState} {initial : Store → Prop} {allowed : World → WorldEvent → Prop}
  {world : World} {key : Bytes}

/-- The requests answered with a provider response are the confirmed clients of
the lease. -/
theorem answersOk_iff_confirmed
    (reachable : (World.system state initial).Reachable allowed world) (id : Nat) :
    world.AnswersOk state key id ↔ world.roleOf key id = .confirmed := by
  rw [World.roleOf_eq_confirmed_iff]
  constructor
  · rintro ⟨task, found, resolved, rkey, outcome, answered, isOk⟩
    obtain ⟨response, rfl⟩ := resultPayload_isOk_iff.mp isOk
    have works := (worksOnKey_of_reachable reachable id task found).1
    rw [answered, resolved] at works
    cases works
    exact ⟨task, response, found, answered⟩
  · rintro ⟨task, response, found, answered⟩
    have works := (worksOnKey_of_reachable reachable id task found).1
    rw [answered] at works
    exact ⟨task, found, works.symm, some key, .ok response, answered, rfl⟩

/-- A running request whose control point works on a key resolved to it. -/
theorem inFlight_of_stage (reachable : (World.system state initial).Reachable allowed world)
    {id : Nat} {task : Task} {stage : Stage} (found : world.tasks id = some task)
    (running : task.stage? = some stage) (works : stage.rkey? = some key) :
    world.InFlight state key id := by
  have resolved := (worksOnKey_of_reachable reachable id task found).1
  rw [(Task.stage?_eq_some_iff.mp running).2] at resolved
  exact ⟨task, stage, found, resolved.symm.trans works, running⟩

theorem Stage.rkey?_of_held {stage : Stage} {stamp : UInt64}
    (held : stage.held = some (key, stamp)) : stage.rkey? = some key := by
  cases stage <;> simp_all [Stage.held, Stage.rkey?]

/-- A holder of the lease is in flight. -/
theorem inFlight_of_owns (reachable : (World.system state initial).Reachable allowed world)
    {id : Nat} (owns : (world.lease key).Owns id) : world.InFlight state key id := by
  obtain ⟨hold, holds, _⟩ := Lease.State.owns_iff.mp owns
  obtain ⟨task, found, held, _⟩ := World.roleOf_eq_holding_iff.mp holds
  obtain ⟨stage, running, stageHeld⟩ := Option.bind_eq_some_iff.mp held
  exact inFlight_of_stage reachable found running (Stage.rkey?_of_held stageHeld)

/-- A client of the lease that is paid and not yet confirmed is in flight. -/
theorem inFlight_of_paid (reachable : (World.system state initial).Reachable allowed world)
    {id : Nat} (paid : world.roleOf key id = .paid) : world.InFlight state key id := by
  obtain ⟨task, response, found, running⟩ := World.stage_of_roleOf_paid paid
  exact inFlight_of_stage reachable found running rfl

/-- The lease pays at most one client, whatever the schedule. -/
theorem answersOk_unique (reachable : (World.system state initial).Reachable allowed world)
    {first second : Nat} (firstOk : world.AnswersOk state key first)
    (secondOk : world.AnswersOk state key second) : first = second := by
  have once := Lease.paidOnce_of_reachable (reachable_lease key reachable)
  refine once.unique first second (Lease.Role.pays_iff.mpr (.inr ?_))
    (Lease.Role.pays_iff.mpr (.inr ?_))
  · exact (answersOk_iff_confirmed reachable first).mp firstOk
  · exact (answersOk_iff_confirmed reachable second).mp secondOk

/-- **No double spend.**  Of the requests that resolve to one replay key, at most
one is answered with a provider response: under every interleaving, every
clock, store errors, cancellations and crashes. -/
theorem at_most_one_ok (reachable : (World.system state initial).Reachable (fun _ _ => True) world)
    {first second : Nat} (distinct : first ≠ second) (firstOk : world.AnswersOk state key first) :
    ¬world.AnswersOk state key second := by
  intro secondOk
  exact distinct (answersOk_unique reachable firstOk secondOk)

end Runs

/-- One request is paid, the gateway restarts, and the ticket is sent again. -/
def replayedTicket : List WorldEvent :=
  reserves 0 ++ succeeds 0 ++ [.crash 0] ++ reserves 1

def replayedWorld : World :=
  ((World.system plainState fun _ => True).run emptyWorld replayedTicket).get (by decide +kernel)

theorem at_most_one_ok_replayed :
    replayedWorld.AnswersOk plainState [7] 0 ∧ ¬replayedWorld.AnswersOk plainState [7] 1 := by
  have reachable : (World.system plainState fun _ => True).Reachable (fun _ _ => True)
      replayedWorld :=
    .of_run (.start ⟨trivial, fun _ => rfl⟩)
      (System.admits_of_forall (fun _ _ _ => trivial) emptyWorld) (Option.some_get _).symm
  have isOk : replayedWorld.AnswersOk plainState [7] 0 := ⟨_, rfl, rfl, _, _, rfl, rfl⟩
  exact ⟨isOk, at_most_one_ok reachable (by decide) isOk⟩

section Rest

variable {state : AppState} {world : World} {key : Bytes}

/-- Without faults, a key that nobody works on is spent when somebody was
answered with a provider response, and absent otherwise. -/
theorem slot_at_rest
    (reachable : (World.system state (fun store => store key = none)).Reachable NoFaults world)
    (atRest : ∀ id, ¬world.InFlight state key id) :
    ((world.lease key).entry.slot = .spent ∧ ∃ id, world.AnswersOk state key id) ∨
      ((world.lease key).entry.slot = .absent ∧ ∀ id, ¬world.AnswersOk state key id) := by
  have onLease := reachable_lease_faultless key reachable
  have answered : Lease.Answered (world.lease key) := by
    refine Lease.answered_of_reachable ?_ onLease
    rintro slot ⟨store, isAbsent, rfl⟩
    simp [entryOf, isAbsent]
  have once := Lease.paidOnce_of_reachable onLease
  cases slot : (world.lease key).entry.slot with
  | absent =>
      refine .inr ⟨rfl, fun id isOk => ?_⟩
      have pays : ((world.lease key).role id).Pays :=
        Lease.Role.pays_iff.mpr (.inr ((answersOk_iff_confirmed reachable id).mp isOk))
      have isSpent := once.paid id pays
      rw [slot] at isSpent
      contradiction
  | pending stamp =>
      obtain ⟨id, owns⟩ := answered.pending stamp slot
      exact absurd (inFlight_of_owns reachable owns) (atRest id)
  | spent =>
      obtain ⟨id, pays⟩ := answered.spent slot
      rcases Lease.Role.pays_iff.mp pays with isPaid | isConfirmed
      · exact absurd (inFlight_of_paid reachable isPaid) (atRest id)
      · exact .inl ⟨rfl, id, (answersOk_iff_confirmed reachable id).mpr isConfirmed⟩
  | other => exact absurd slot answered.known

/-- **The store at rest.**  Without faults and from a store without the key,
whenever no request on the key is in flight: the key is absent or holds a
nine-byte spent value, it is spent exactly when one request was answered with a
provider response, and it is absent, and can be reserved at once, exactly when
none was. -/
theorem store_at_rest
    (reachable : (World.system state (fun store => store key = none)).Reachable NoFaults world)
    (atRest : ∀ id, ¬world.InFlight state key id) :
    (world.db.valueAt key = none ∨ ∃ stamp, world.db.valueAt key = some (spentValue stamp) ∧
      (spentValue stamp).length = 9) ∧
    (world.Spent key ↔ ∃! id, world.AnswersOk state key id) ∧
    (world.db.valueAt key = none ↔ ∀ id, ¬world.AnswersOk state key id) ∧
    (world.db.valueAt key = none → ∀ clock id new,
      serveCall world.db clock id (.compareAndSwap key none new) .works =
        some (.ok true, world.db.write id key new)) := by
  have reserve : world.db.valueAt key = none → ∀ clock id new,
      serveCall world.db clock id (.compareAndSwap key none new) .works =
        some (.ok true, world.db.write id key new) := fun isAbsent clock id new =>
    serveCall_compareAndSwap.mpr (.inl ⟨rfl, isAbsent, rfl, rfl⟩)
  rcases slot_at_rest reachable atRest with ⟨isSpent, id, isOk⟩ | ⟨isAbsent, noneOk⟩
  · rw [slot_lease, slotOf_eq_spent_iff] at isSpent
    obtain ⟨stamp, stored⟩ := isSpent
    have unique : ∃! id, world.AnswersOk state key id := by
      exact ⟨id, isOk, fun other otherOk => answersOk_unique reachable otherOk isOk⟩
    refine ⟨.inr ⟨stamp, stored, length_encodeNullifierValue _ _⟩, ⟨fun _ => unique, fun _ =>
      ⟨stamp, stored⟩⟩, ⟨fun isAbsent => ?_, fun noneOk => absurd isOk (noneOk id)⟩, reserve⟩
    rw [stored] at isAbsent
    contradiction
  · rw [slot_lease, slotOf_eq_absent_iff] at isAbsent
    refine ⟨.inl isAbsent, ⟨?_, ?_⟩, ⟨fun _ => noneOk, fun _ => isAbsent⟩, reserve⟩
    · rintro ⟨stamp, stored⟩
      rw [isAbsent] at stored
      contradiction
    · rintro ⟨id, isOk, _⟩
      exact absurd isOk (noneOk id)

end Rest

/-- A request whose provider call fails, and then one that is paid. -/
def retriedTicket : List WorldEvent :=
  reserves 0 ++ releases 0 ++ reserves 1 ++ succeeds 1

def retriedWorld : World :=
  ((World.system plainState fun store => store [7] = none).run emptyWorld retriedTicket).get
    (by decide +kernel)

theorem store_at_rest_retried :
    retriedWorld.Spent [7] ↔ ∃! id, retriedWorld.AnswersOk plainState [7] id := by
  have reachable : (World.system plainState fun store => store [7] = none).Reachable NoFaults
      retriedWorld :=
    .of_run (.start ⟨rfl, fun _ => rfl⟩)
      (System.admits_of_forall
        (by simp [retriedTicket, reserves, releases, succeeds, NoFaults]) emptyWorld)
      (Option.some_get _).symm
  have atRest : ∀ id, ¬retriedWorld.InFlight plainState [7] id := by
    rintro id ⟨task, stage, found, _, running⟩
    match id with
    | 0 => cases found; contradiction
    | 1 => cases found; contradiction
    | n + 2 => contradiction
  exact (store_at_rest reachable atRest).2.1

end ZkLlmGateway.Gateway
