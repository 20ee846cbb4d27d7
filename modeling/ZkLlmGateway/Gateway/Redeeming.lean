import ZkLlmGateway.Gateway.Payment
import ZkLlmGateway.Gateway.Delivery

/-!
# Tickets are not lost in the store

A pending reservation may be left behind by a request that was cancelled, lost in a crash or
failed by the store.  Once it is stale, a new request with the ticket replaces it and is
served, without the help of any other request.
-/

namespace ZkLlmGateway.Gateway

open ZkLlmGateway.Encoding ZkLlmGateway.Common ZkLlmGateway.Interaction ZkLlmGateway.Transition

/-! ## A request on its own -/

/-- The replies to a request alone lead from `start` to this store and this progress. -/
def Leads (state : AppState) (initial : Store → Prop) (start : World) (id : Nat)
    (request : InferenceRequest) (replies : List Reply) (db : Db) (progress : Progress) : Prop :=
  ∃ task : Task, task.lost = false ∧ task.progress = progress ∧ task.request = request ∧
    (World.system state initial).run start (replies.map (.serve id)) =
      some ⟨Function.update start.tasks id (some task), db, start.clock⟩

section Leads

variable {state : AppState} {initial : Store → Prop} {start : World} {id : Nat}
  {request : InferenceRequest} {replies : List Reply} {db next : Db} {rkey : Bytes}
  {stamp : UInt64} {response : ProviderChatCompletionResult}

/-- One more reply. -/
theorem Leads.serve {stage : Stage} {reply : Reply}
    {answer : Answer (stage.query state request)}
    (leads : Leads state initial start id request replies db (.waiting stage))
    (served : serveCall db start.clock id (stage.query state request) reply =
      some (answer, next)) :
    Leads state initial start id request (replies ++ [reply]) next
      (stage.resume state request answer) := by
  obtain ⟨task, found, waits, rfl, replayed⟩ := leads
  have stepped : (World.system state initial).step
      ⟨Function.update start.tasks id (some task), db, start.clock⟩ (.serve id reply) =
        some ⟨Function.update start.tasks id
          (some (task.advance state start.clock.toNat db.writes stage answer)), next,
          start.clock⟩ := by
    apply World.serve_eq_some_iff.mpr
    refine ⟨task, stage, Function.update_self .., Task.stage?_eq_some_iff.mpr ⟨found, waits⟩,
      answer, next, served, ?_⟩
    rw [Function.update_idem]
  refine ⟨task.advance state start.clock.toNat db.writes stage answer, found, rfl, rfl, ?_⟩
  rw [List.map_append]
  exact System.run_concat replayed stepped

/-- A swap that finds what it expects. -/
theorem serveCall_swap {old new : Option Bytes} (clock : UInt64) (id : Nat)
    (found : db.valueAt rkey = old) :
    serveCall db clock id (.compareAndSwap rkey old new) .works =
      some (.ok true, db.write id rkey new) :=
  serveCall_compareAndSwap.mpr (.inl ⟨rfl, found, rfl, rfl⟩)

/-- The store with one value written. -/
def Writes (rkey value : Bytes) (db next : Db) : Prop :=
  next.valueAt rkey = some value ∧ ∀ other, other ≠ rkey → next.store other = db.store other

theorem writes_write (db : Db) (id : Nat) (rkey value : Bytes) :
    Writes rkey value db (db.write id rkey (some value)) := by
  constructor
  · simp [Db.valueAt, Db.write]
  · intro other isOther
    exact Function.update_of_ne isOther ..

theorem Writes.trans {middle : Db} {first second : Bytes} (before : Writes rkey first db middle)
    (after : Writes rkey second middle next) : Writes rkey second db next :=
  ⟨after.1, fun other isOther => (after.2 other isOther).trans (before.2 other isOther)⟩

/-- The key can be reserved at this time. -/
def Reservable (state : AppState) (clock : UInt64) (db : Db) (rkey : Bytes) : Prop :=
  db.valueAt rkey = none ∨ ∃ existing, db.valueAt rkey = some (pendingValue existing) ∧
    saturatingSub clock existing > state.nullifierPendingTtlMs

/-- A request reserves a key that is absent, or whose reservation is stale. -/
theorem Leads.reserve
    (leads : Leads state initial start id request replies db (.waiting (.reserving rkey stamp)))
    (reservable : Reservable state start.clock db rkey) :
    ∃ works middle, Leads state initial start id request (replies ++ List.replicate works .works)
      middle (.waiting (.calling rkey stamp)) ∧ Writes rkey (pendingValue stamp) db middle := by
  have written := writes_write db id rkey (pendingValue stamp)
  have flushes : ∀ {made : List Reply} {store : Db},
      Leads state initial start id request made store (.waiting (.flushingReserve rkey stamp)) →
      Leads state initial start id request (made ++ [.works]) store.flushed
        (.waiting (.calling rkey stamp)) :=
    fun reserved => reserved.serve (serveCall_flush.mpr (.inl ⟨rfl, rfl, rfl⟩))
  rcases reservable with absent | ⟨existing, isPending, stale⟩
  · have reserved := flushes (leads.serve (serveCall_swap start.clock id absent))
    rw [List.append_assoc] at reserved
    exact ⟨2, _, reserved, written⟩
  · have present : db.valueAt rkey ≠ none := by
      rw [isPending]
      exact Option.some_ne_none _
    have refused := leads.serve
      (serveCall_compareAndSwap.mpr (.inr (.inl ⟨rfl, present, rfl, rfl⟩)))
    have looked := refused.serve (serveCall_get.mpr ⟨rfl, .inl ⟨rfl, rfl⟩⟩)
    have isChecked : Stage.afterLook request rkey stamp (db.valueAt rkey) =
        .waiting (.checkingStale rkey stamp existing) := by
      rw [isPending]
      simp [Stage.afterLook, pendingValue]
    change Leads _ _ _ _ _ _ _ (Stage.afterLook request rkey stamp (db.valueAt rkey)) at looked
    rw [isChecked] at looked
    have checked := looked.serve (serveCall_now.mpr ⟨rfl, rfl, rfl⟩)
    change Leads _ _ _ _ _ _ _ (if _ then _ else _) at checked
    rw [if_pos stale] at checked
    have reserved := flushes (checked.serve (serveCall_swap start.clock id isPending))
    simp only [List.append_assoc] at reserved
    exact ⟨5, _, reserved, written⟩

/-- A request that has reserved its key is answered with what the provider answers, and the key is
spent. -/
theorem Leads.conclude
    (leads : Leads state initial start id request replies db (.waiting (.calling rkey stamp)))
    (reserved : db.valueAt rkey = some (pendingValue stamp)) {answer : HttpAnswer}
    (answers : readProviderAnswer state.library request.requestId answer = .ok response) :
    ∃ final, Leads state initial start id request
        (replies ++ [.replied answer, .works, .works, .works]) final
        (.answered (some rkey) (.ok response)) ∧
      Writes rkey (spentValue start.clock) db final := by
  have posted : serveCall db start.clock id ((Stage.calling rkey stamp).query state request)
      (.replied answer) = some (answer, db) := rfl
  have answered := leads.serve posted
  simp only [Stage.resume, answers] at answered
  have stamped := answered.serve (serveCall_now.mpr ⟨rfl, rfl, rfl⟩)
  have marked := stamped.serve (serveCall_swap start.clock id reserved)
  have flushed := marked.serve (serveCall_flush.mpr (.inl ⟨rfl, rfl, rfl⟩))
  simp only [List.append_assoc] at flushed
  exact ⟨_, flushed, writes_write db id rkey (spentValue start.clock)⟩

end Leads

/-! ## A ticket that is not spent -/

/-- How the calls of a request are served whose ticket is verified. -/
def redeemingReplies (verified : VerifiedTicket) (works : Nat) (answer : HttpAnswer) : List Reply :=
  .verified (.ok verified) :: List.replicate works .works ++
    [.replied answer, .works, .works, .works]

def redeems (id : Nat) (envelope : Envelope) (request : InferenceRequest)
    (verified : VerifiedTicket) (works : Nat) (answer : HttpAnswer) : List WorldEvent :=
  .arrive id envelope request :: (redeemingReplies verified works answer).map (.serve id)

section Redeeming

variable {state : AppState} {initial : Store → Prop} {world : World} {id : Nat}
  {envelope : Envelope} {request : InferenceRequest} {verified : VerifiedTicket} {key : Bytes}
  {answer : HttpAnswer} {response : ProviderChatCompletionResult}

/-- A new request whose key can be reserved is served without the others. -/
theorem exists_redeems (isNew : world.tasks id = none)
    (checked : checkRequest envelope request = .ok ())
    (resolves : ticketKey state.library request.ticket verified = key)
    (reservable : Reservable state world.clock world.db key)
    (answers : readProviderAnswer state.library request.requestId answer = .ok response) :
    ∃ works task db, (World.system state initial).run world
        (redeems id envelope request verified works answer) =
          some ⟨Function.update world.tasks id (some task), db, world.clock⟩ ∧
      task.progress = .answered (some key) (.ok response) ∧
      Writes key (spentValue world.clock) world.db db := by
  subst resolves
  obtain ⟨start, isStart⟩ : ∃ start : World, start = { world with
      tasks := Function.update world.tasks id (some (.arrived envelope request)) } := ⟨_, rfl⟩
  have arrives : (World.system state initial).step world (.arrive id envelope request) =
      some start := by
    rw [isStart]
    exact if_pos (Option.isNone_iff_eq_none.mpr isNew)
  have begun : Leads state initial start id request [] world.db (.waiting .verifying) := by
    refine ⟨.arrived envelope request, rfl, ?_, rfl, ?_⟩
    · rw [Task.arrived, Progress.start, checked]
    · rw [isStart, List.map_nil, System.run, Function.update_idem]
  have isVerified : serveCall world.db start.clock id (Stage.verifying.query state request)
      (.verified (.ok verified)) = some (.ok verified, world.db) := rfl
  have stamped := (begun.serve isVerified).serve (serveCall_now.mpr ⟨rfl, rfl, rfl⟩)
  have clock : start.clock = world.clock := by rw [isStart]
  rw [← clock] at reservable ⊢
  obtain ⟨works, middle, reserved, written⟩ := stamped.reserve reservable
  obtain ⟨final, concluded, spent⟩ := reserved.conclude written.1 answers
  obtain ⟨task, _, answered, _, replayed⟩ := concluded
  refine ⟨works + 1, task, final, ?_, answered, written.trans spent⟩
  have same : redeemingReplies verified (works + 1) answer =
      [] ++ [.verified (.ok verified)] ++ [.works] ++ List.replicate works .works ++
        [.replied answer, .works, .works, .works] := by
    simp [redeemingReplies, List.replicate_succ]
  rw [redeems, System.run, arrives, Option.bind_some, same, replayed, isStart, Function.update_idem]

/-- The time to live of whatever reservation is left for the key has passed. -/
def PastTtl (state : AppState) (clock : UInt64) (db : Db) (rkey : Bytes) : Prop :=
  ∀ existing, db.valueAt rkey = some (pendingValue existing) →
    saturatingSub clock existing > state.nullifierPendingTtlMs

/-- A key that is not spent can be reserved once the time to live has passed. -/
theorem reservable_of_pastTtl {clock : UInt64} {db : Db} (free : (slotOf (db.valueAt key)).Free)
    (past : PastTtl state clock db key) : Reservable state clock db key := by
  cases isSlot : slotOf (db.valueAt key) with
  | absent => exact .inl (slotOf_eq_absent_iff.mp isSlot)
  | pending existing =>
      have isPending := slotOf_eq_pending_iff.mp isSlot
      exact .inr ⟨existing, isPending, past existing isPending⟩
  | spent | other =>
      rw [isSlot] at free
      exact free.elim

/-- **A ticket that is not spent can be redeemed**, from every state of every run, whatever
crashes, cancellations and errors have left in the store, and at every time past the time to live
of the reservation that may be left: a new request with the ticket gets the provider's answer, and
nobody else has to do anything.  The client receives it exactly when it fits the class. -/
theorem redeemable_of_reachable (correct : Correct state.primitives state.aead)
    (reachable : (World.system state initial).Reachable (fun _ _ => True) world)
    (free : (slotOf (world.db.valueAt key)).Free) {clock : UInt64}
    (past : PastTtl state clock world.db key) (isNew : world.tasks id = none) {plaintext : Bytes}
    (opened :
      openRequestAtGateway state.primitives state.aead state.keypair envelope = .ok plaintext)
    (checked : checkRequest envelope request = .ok ())
    (resolves : ticketKey state.library request.ticket verified = key)
    (answers : readProviderAnswer state.library request.requestId answer = .ok response) :
    ∃ works task final, (World.system state initial).run world
        (.tick clock :: redeems id envelope request verified works answer) = some final ∧
      final.tasks id = some task ∧ task.progress = .answered (some key) (.ok response) ∧
      final.AnswersOk state key id ∧ final.Spent key ∧
      (∀ other, other ≠ key → final.db.store other = world.db.store other) ∧
      (∀ other, other ≠ id → final.tasks other = world.tasks other) ∧
      ∀ nonce, Delivered state envelope request response
          (sealedResult state envelope request nonce (.ok response)) ↔
        okPayloadBytes request response.body ≤
          request.tokenClass.envelopeResponsePlaintextBytes := by
  have reservable := reservable_of_pastTtl free past
  obtain ⟨works, task, db, replayed, answered, spent, others⟩ :=
    @exists_redeems state initial { world with clock := clock } id envelope request verified key
      answer response isNew checked resolves reservable answers
  have replays : (World.system state initial).run world
      (.tick clock :: redeems id envelope request verified works answer) =
        some ⟨Function.update world.tasks id (some task), db, clock⟩ := replayed
  have reached := reachable.of_run (System.admits_of_forall (fun _ _ _ => trivial) world) replays
  have isTask : Function.update world.tasks id (some task) id = some task :=
    Function.update_self ..
  have resolved := (worksOnKey_of_reachable reached id task isTask).1
  rw [answered] at resolved
  refine ⟨works, task, _, replays, isTask, answered, ⟨task, isTask, resolved.symm, some key,
    .ok response, answered, rfl⟩, ⟨clock, spent⟩, others, ?_, ?_⟩
  · intro other isOther
    exact Function.update_of_ne isOther ..
  · exact delivered_sealedResult_iff correct opened checked (output_of_readProviderAnswer answers)

end Redeeming

/-- A request reserves its ticket, and the gateway crashes. -/
def abandonedTicket : List WorldEvent :=
  reserves 0 ++ [.crash 0]

def abandonedWorld : World :=
  ((World.system (answeringState .null) fun _ => True).run emptyWorld abandonedTicket).get
    (by decide +kernel)

/-- The reservation was made at 100 and lives for 10: at 111 its ticket is redeemed. -/
theorem redeemable_abandoned : ∃ works task final,
    (World.system (answeringState .null) fun _ => True).run abandonedWorld (.tick 111 ::
        redeems 1 paidEnvelope plainRequest ⟨.c256, []⟩ works (.response 200 [])) = some final ∧
      final.tasks 1 = some task ∧
      task.progress = .answered (some [7]) (.ok ⟨.null, extractProviderOutput .null⟩) ∧
      final.AnswersOk (answeringState .null) [7] 1 := by
  have reachable : (World.system (answeringState .null) fun _ => True).Reachable (fun _ _ => True)
      abandonedWorld :=
    .of_run (.start ⟨trivial, fun _ => rfl⟩)
      (System.admits_of_forall (fun _ _ _ => trivial) emptyWorld) (Option.some_get _).symm
  have isPending : abandonedWorld.db.valueAt [7] = some (pendingValue 100) := by decide +kernel
  have free : (slotOf (abandonedWorld.db.valueAt [7])).Free := by
    rw [isPending, slotOf_pendingValue]
    trivial
  have past : PastTtl (answeringState .null) 111 abandonedWorld.db [7] := by
    intro existing isExisting
    have same := congrArg slotOf (isPending.symm.trans isExisting)
    rw [slotOf_pendingValue, slotOf_pendingValue] at same
    cases same
    decide
  have checked : checkRequest paidEnvelope plainRequest = .ok () := rfl
  have resolves : ticketKey (answeringState .null).library plainRequest.ticket ⟨.c256, []⟩ = [7] :=
    rfl
  have answers : readProviderAnswer (answeringState .null).library plainRequest.requestId
      (.response 200 []) = .ok ⟨.null, extractProviderOutput .null⟩ := rfl
  have isNew : abandonedWorld.tasks 1 = none := by decide +kernel
  obtain ⟨works, task, final, replayed, isTask, answered, isOk, _⟩ :=
    redeemable_of_reachable correct_transparent reachable free past isNew (openRequest_paid .null)
      checked resolves answers
  exact ⟨works, task, final, replayed, isTask, answered, isOk⟩

end ZkLlmGateway.Gateway
