import ZkLlmGateway.Gateway.Payment

/-!
# Whose reservation it is

A pending value is recognised by its bytes alone, so two requests that read
the same millisecond write the same reservation.  As long as no reservation is
made with the bytes of another one that is still held, every release and every
mark acts on its own; and in any case a second reservation of a key succeeds
only after the first has outlived its time.
-/

namespace ZkLlmGateway.Gateway

open ZkLlmGateway.Encoding ZkLlmGateway.Common ZkLlmGateway.Interaction ZkLlmGateway.Transition

/-! ## Releases and marks -/

/-- The reservation a control point is about to release or to mark. -/
def Stage.concludes : Stage → Option (Bytes × UInt64)
  | releasing rkey stamp _ => some (rkey, stamp)
  | marking rkey stamp _ _ => some (rkey, stamp)
  | _ => none

/-- A release or mark that takes effect finds the entry that the same request
wrote with its reservation, and so no entry of another request. -/
def OwnSwap (world : World) : WorldEvent → Prop
  | .serve id reply => ∀ task stage key stamp, world.tasks id = some task →
      task.stage? = some stage → stage.concludes = some (key, stamp) →
      reply = .works ∨ reply = .failsAfter →
      world.db.valueAt key = some (pendingValue stamp) →
      (world.db.store key).bind StoredValue.writer = some id
  | _ => True

theorem Stage.held_of_concludes {stage : Stage} {key : Bytes} {stamp : UInt64}
    (concludes : stage.concludes = some (key, stamp)) : stage.held = some (key, stamp) := by
  cases stage <;> first | exact concludes | contradiction

/-- **Reservations belong to their request**, in every run in which no
reservation succeeds with the bytes another running request holds. -/
theorem swaps_own {state : AppState} {initial : Store → Prop} {world : World}
    (reachable : (World.system state initial).Reachable Apart world) (event : WorldEvent) :
    OwnSwap world event := by
  cases event with
  | serve id reply =>
      intro task stage key stamp found running concludes _ stored
      have owned := Lease.owned_of_reachable
        (reachable_lease_apart key (fun _ _ apart => apart) reachable)
      have held : task.held = some (key, stamp) := by
        rw [Task.held, running]
        exact Stage.held_of_concludes concludes
      exact owned.writer id ((owns_iff_of_held found held).mpr stored)
  | arrive id envelope request => trivial
  | tick clock => trivial
  | cancel id => trivial
  | crash age => trivial

/-- A request that reserved an absent key, and whose provider call failed. -/
def releasingWorld : World :=
  ((World.system plainState fun _ => True).run emptyWorld
    (reserves 0 ++ [.serve 0 (.replied .sendFailed)])).get (by decide +kernel)

theorem swaps_own_releasing : OwnSwap releasingWorld (.serve 0 .works) := by
  have admitted : (World.system plainState fun _ => True).Admits Apart emptyWorld
      (reserves 0 ++ [.serve 0 (.replied .sendFailed)]) := by
    refine ⟨trivial, ?_⟩
    rintro _ ⟨⟩
    constructor
    · rintro task stage rkey old stamp ⟨⟩ ⟨⟩ ⟨⟩
    rintro _ ⟨⟩
    constructor
    · rintro task stage rkey old stamp ⟨⟩ ⟨⟩ ⟨⟩
    rintro _ ⟨⟩
    constructor
    · rintro task stage rkey old stamp ⟨⟩ ⟨⟩ ⟨⟩ _ other holder found held
      match other with
      | 0 => cases found; contradiction
      | n + 1 => contradiction
    rintro _ ⟨⟩
    constructor
    · rintro task stage rkey old stamp ⟨⟩ ⟨⟩ ⟨⟩
    rintro _ ⟨⟩
    constructor
    · rintro task stage rkey old stamp ⟨⟩ ⟨⟩ ⟨⟩
    exact fun _ _ => trivial
  have reachable : (World.system plainState fun _ => True).Reachable Apart releasingWorld :=
    .of_run (.start ⟨trivial, fun _ => rfl⟩) admitted (Option.some_get _).symm
  exact swaps_own reachable (.serve 0 .works)

/-- A request arrives, is verified and stamped. -/
def stamps (id : Nat) : List WorldEvent :=
  [.arrive id plainEnvelope plainRequest, .serve id (.verified (.ok ⟨.c256, []⟩)),
    .serve id .works]

/-- A stamped request finds the key pending and replaces the stale value. -/
def replaces (id : Nat) : List WorldEvent :=
  [.serve id .works, .serve id .works, .serve id .works, .serve id .works, .serve id .works]

/-- Two requests are stamped in the same millisecond; the first reserves. -/
def stampedWorld : World :=
  ((World.system plainState fun _ => True).run emptyWorld (reserves 0 ++ stamps 1)).get
    (by decide +kernel)

/-- Once the reservation is stale, the second request replaces it by the same
bytes; then the provider fails the first. -/
def sharedWorld : World :=
  ((World.system plainState fun _ => True).run { stampedWorld with clock := 111 }
    (replaces 1 ++ [.serve 0 (.replied .sendFailed)])).get (by decide +kernel)

theorem reachable_sharedWorld :
    (World.system plainState fun _ => True).Reachable Steady sharedWorld := by
  have stamped : (World.system plainState fun _ => True).Reachable Steady stampedWorld :=
    .of_run (.start ⟨trivial, fun _ => rfl⟩)
      (System.admits_of_forall (by simp [reserves, stamps, Steady]) emptyWorld)
      (Option.some_get _).symm
  have forward : stampedWorld.clock ≤ 111 := by decide +kernel
  have steady : Steady stampedWorld (.tick 111) := forward
  have later : (World.system plainState fun _ => True).Reachable Steady
      { stampedWorld with clock := 111 } := .next stamped steady rfl
  exact .of_run later (System.admits_of_forall (by simp [replaces, Steady]) _)
    (Option.some_get _).symm

/-- The first request then deletes the reservation of the second, whose
provider call is still running. -/
theorem release_of_another :
    ¬∀ (state : AppState) (initial : Store → Prop) (world : World) (event : WorldEvent),
      (World.system state initial).Reachable Steady world →
      (World.step state world event).isSome = true → OwnSwap world event := by
  intro always
  have own := always plainState (fun _ => True) sharedWorld (.serve 0 .works)
    reachable_sharedWorld (by decide +kernel) _ _ [7] 100 rfl rfl rfl (.inl rfl) rfl
  contradiction

/-! ## Live reservations -/

/-- From the moment its reservation succeeds until its release or mark runs,
the request `id` holds `key` with a stamp. -/
def World.Holds (world : World) (key : Bytes) (id : Nat) (task : Task) (stamp : UInt64) : Prop :=
  world.tasks id = some task ∧ task.held = some (key, stamp)

/-- **One live reservation per ticket.**  With a clock that never steps back,
two requests in flight on one key are ordered, and the later reservation
succeeded when the clock had passed the stamp of the earlier one by more than
the time to live; so requests that are all within their time are one. -/
theorem live_reservations {state : AppState} {initial : Store → Prop} {world : World}
    (reachable : (World.system state initial).Reachable Steady world) (key : Bytes) :
    (∀ first second firstTask secondTask firstStamp secondStamp,
      world.Holds key first firstTask firstStamp → world.Holds key second secondTask secondStamp →
      first ≠ second → firstTask.turn ≠ secondTask.turn ∧
        (firstTask.turn < secondTask.turn →
          firstStamp.toNat + state.nullifierPendingTtlMs.toNat < secondTask.since)) ∧
    ((∀ id task stamp, world.Holds key id task stamp →
        world.clock.toNat ≤ stamp.toNat + state.nullifierPendingTtlMs.toNat) →
      ∀ first second firstTask secondTask firstStamp secondStamp,
        world.Holds key first firstTask firstStamp →
        world.Holds key second secondTask secondStamp → first = second) := by
  have isOrdered : Lease.Ordered (deadline state) (world.lease key) :=
    Lease.ordered_of_reachable (reachable_lease_timed key (fun _ _ steady => steady) reachable)
  have holding : ∀ id task stamp, world.Holds key id task stamp →
      (world.lease key).role id = .holding ⟨stamp, task.since, task.turn⟩ := by
    rintro id task stamp ⟨found, held⟩
    exact World.roleOf_eq_holding_iff.mpr ⟨task, found, held, rfl, rfl⟩
  constructor
  · intro first second firstTask secondTask firstStamp secondStamp firstHolds secondHolds distinct
    have firstRole := holding _ _ _ firstHolds
    have secondRole := holding _ _ _ secondHolds
    exact ⟨fun same => distinct (isOrdered.distinct _ _ _ _ firstRole secondRole same),
      isOrdered.ordered _ _ _ _ firstRole secondRole⟩
  · intro inTime first second firstTask secondTask firstStamp secondStamp firstHolds secondHolds
    exact isOrdered.unique (holding _ _ _ firstHolds) (holding _ _ _ secondHolds)
      (inTime _ _ _ firstHolds) (inTime _ _ _ secondHolds)

/-- The second of two requests reserves at 111, after the stamp 100 of the first
and ten milliseconds. -/
theorem live_reservations_shared : ∃ firstTask secondTask,
    sharedWorld.Holds [7] 0 firstTask 100 ∧ sharedWorld.Holds [7] 1 secondTask 100 ∧
      firstTask.turn < secondTask.turn ∧ (100 : UInt64).toNat + 10 < secondTask.since := by
  have ordered := (live_reservations reachable_sharedWorld [7]).1 0 1 _ _ 100 100 ⟨rfl, rfl⟩
    ⟨rfl, rfl⟩ (by decide)
  exact ⟨_, _, ⟨rfl, rfl⟩, ⟨rfl, rfl⟩, by decide +kernel, ordered.2 (by decide +kernel)⟩

end ZkLlmGateway.Gateway
