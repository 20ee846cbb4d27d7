import ZkLlmGateway.Gateway.Infer

/-!
# Control points of the handler

Between two calls a handler is at one of finitely many control points.  Each
is given with the call it waits on and the control point every answer leads
to; `program` is the code that remains there.  `program_inferResult` and
`program_waiting` connect the two: the control points step exactly as the code
does.
-/

namespace ZkLlmGateway.Gateway

open ZkLlmGateway.Encoding ZkLlmGateway.Common ZkLlmGateway.Interaction
open ZkLlmGateway.Interaction.Program (bind_done)

/-- What a request ends with before it is encrypted. -/
abbrev InferOutcome := Except EncryptedError ProviderChatCompletionResult

/-- A control point that waits for an answer. -/
inductive Stage
  | verifying
  | stamping (rkey : Bytes)
  | reserving (rkey : Bytes) (stamp : UInt64)
  | flushingReserve (rkey : Bytes) (stamp : UInt64)
  | looking (rkey : Bytes) (stamp : UInt64)
  | checkingStale (rkey : Bytes) (stamp existing : UInt64)
  | replacing (rkey : Bytes) (stamp existing : UInt64)
  | calling (rkey : Bytes) (stamp : UInt64)
  | releasing (rkey : Bytes) (stamp : UInt64) (problem : EncryptedError)
  | flushingRelease (rkey : Bytes) (stamp : UInt64) (problem : EncryptedError)
  | stampingSpent (rkey : Bytes) (stamp : UInt64) (response : ProviderChatCompletionResult)
  | marking (rkey : Bytes) (stamp : UInt64) (response : ProviderChatCompletionResult)
      (spentStamp : UInt64)
  | flushingMark (rkey : Bytes) (response : ProviderChatCompletionResult)

/-- A handler waits, or has answered: with the replay key it resolved, if it
came so far. -/
inductive Progress
  | waiting (stage : Stage)
  | answered (rkey : Option Bytes) (outcome : InferOutcome)

def pendingValue (stamp : UInt64) : Bytes :=
  encodeNullifierValue pendingStatus stamp

def spentValue (stamp : UInt64) : Bytes :=
  encodeNullifierValue spentStatus stamp

/-- The replay key a control point works on. -/
def Stage.rkey? : Stage → Option Bytes
  | verifying => none
  | stamping rkey | reserving rkey _ | flushingReserve rkey _ | looking rkey _
  | checkingStale rkey _ _ | replacing rkey _ _ | calling rkey _ | releasing rkey _ _
  | flushingRelease rkey _ _ | stampingSpent rkey _ _ | marking rkey _ _ _
  | flushingMark rkey _ => some rkey

def Progress.rkey? : Progress → Option Bytes
  | waiting stage => stage.rkey?
  | answered rkey _ => rkey

section Handler

variable (state : AppState) (req : InferenceRequest)

def alreadyUsed (rkey : Bytes) : Progress :=
  .answered (some rkey) (.error (mapReserveError req.requestId .alreadyUsed))

def dbError (rkey : Bytes) : Progress :=
  .answered (some rkey) (.error (.internal req.requestId (text "db error")))

namespace Stage

/-- The call a control point waits on. -/
def query : Stage → Call
  | verifying => verifyCall state req
  | stamping _ => .now
  | reserving rkey stamp => .compareAndSwap rkey none (some (pendingValue stamp))
  | flushingReserve _ _ => .flush
  | looking rkey _ => .get rkey
  | checkingStale _ _ _ => .now
  | replacing rkey stamp existing =>
      .compareAndSwap rkey (some (pendingValue existing)) (some (pendingValue stamp))
  | calling _ _ => providerCall state req
  | releasing rkey stamp _ => .compareAndSwap rkey (some (pendingValue stamp)) none
  | flushingRelease _ _ _ => .flush
  | stampingSpent _ _ _ => .now
  | marking rkey stamp _ spentStamp =>
      .compareAndSwap rkey (some (pendingValue stamp)) (some (spentValue spentStamp))
  | flushingMark _ _ => .flush

/-- Where a stored value leads a request that found the key present. -/
def afterLook (rkey : Bytes) (stamp : UInt64) : Option Bytes → Progress
  | none => alreadyUsed req rkey
  | some val =>
      match decodeNullifierValue val with
      | none => alreadyUsed req rkey
      | some (status, existing) =>
          if status = pendingStatus then .waiting (.checkingStale rkey stamp existing)
          else alreadyUsed req rkey

/-- Where an answer leads. -/
def resume : (stage : Stage) → Answer (stage.query state req) → Progress
  | verifying, .error e => .answered none (.error (mapZkError req.requestId e))
  | verifying, .ok verified => .waiting (.stamping (ticketKey state.library req.ticket verified))
  | stamping rkey, now => .waiting (.reserving rkey now)
  | reserving rkey _, .error _ => dbError req rkey
  | reserving rkey stamp, .ok true => .waiting (.flushingReserve rkey stamp)
  | reserving rkey stamp, .ok false => .waiting (.looking rkey stamp)
  | flushingReserve rkey _, .error _ => dbError req rkey
  | flushingReserve rkey stamp, .ok () => .waiting (.calling rkey stamp)
  | looking rkey _, .error _ => dbError req rkey
  | looking rkey stamp, .ok stored => afterLook req rkey stamp stored
  | checkingStale rkey stamp existing, now =>
      if saturatingSub now existing > state.nullifierPendingTtlMs then
        .waiting (.replacing rkey stamp existing)
      else alreadyUsed req rkey
  | replacing rkey _ _, .error _ => dbError req rkey
  | replacing rkey stamp _, .ok true => .waiting (.flushingReserve rkey stamp)
  | replacing rkey _ _, .ok false => alreadyUsed req rkey
  | calling rkey stamp, answer =>
      match readProviderAnswer state.library req.requestId answer with
      | .error problem => .waiting (.releasing rkey stamp problem)
      | .ok response => .waiting (.stampingSpent rkey stamp response)
  | releasing rkey _ problem, .error _ => .answered (some rkey) (.error problem)
  | releasing rkey stamp problem, .ok true => .waiting (.flushingRelease rkey stamp problem)
  | releasing rkey _ problem, .ok false => .answered (some rkey) (.error problem)
  | flushingRelease rkey _ problem, _ => .answered (some rkey) (.error problem)
  | stampingSpent rkey stamp response, now => .waiting (.marking rkey stamp response now)
  | marking rkey _ _ _, .error _ => dbError req rkey
  | marking rkey _ response _, .ok true => .waiting (.flushingMark rkey response)
  | marking rkey _ _ _, .ok false => dbError req rkey
  | flushingMark rkey _, .error _ => dbError req rkey
  | flushingMark rkey response, .ok () => .answered (some rkey) (.ok response)

end Stage

/-- A request never changes the key it works on. -/
theorem Stage.rkey?_resume {stage : Stage} {rkey : Bytes} (works : stage.rkey? = some rkey)
    (answer : Answer (stage.query state req)) :
    (stage.resume state req answer).rkey? = some rkey := by
  cases stage with
  | verifying => contradiction
  | looking ownKey stamp =>
      rcases answer with e | stored
      · exact works
      · simp only [Stage.resume, Stage.afterLook]
        split
        next => exact works
        next =>
          split
          next => exact works
          next => split <;> exact works
  | checkingStale ownKey stamp existing =>
      simp only [Stage.resume]
      split <;> exact works
  | calling ownKey stamp =>
      simp only [Stage.resume]
      split <;> exact works
  | stamping ownKey => exact works
  | stampingSpent ownKey stamp response => exact works
  | flushingRelease ownKey stamp problem => exact works
  | flushingReserve ownKey stamp => rcases answer with e | _ <;> exact works
  | flushingMark ownKey response => rcases answer with e | _ <;> exact works
  | reserving ownKey stamp => rcases answer with e | _ | _ <;> exact works
  | replacing ownKey stamp existing => rcases answer with e | _ | _ <;> exact works
  | releasing ownKey stamp problem => rcases answer with e | _ | _ <;> exact works
  | marking ownKey stamp response spentStamp => rcases answer with e | _ | _ <;> exact works

namespace Stage

/-! ## The code that remains -/

/-- A flush that completes a reservation, a mark or a release. -/
def flushProgram : Handler (Except ReserveError Unit) := do
  match ← flush with
  | .error _ => return .error .db
  | .ok () => return .ok ()

/-- What follows the reservation. -/
def afterReserve (rkey : Bytes) (stamp : UInt64) :
    Except ReserveError Unit → Handler InferOutcome
  | .error e => .done (.error (mapReserveError req.requestId e))
  | .ok () => answerReserved state req rkey (pendingValue stamp)

/-- What follows the mark. -/
def afterMark (response : ProviderChatCompletionResult) :
    Except ReserveError Unit → Handler InferOutcome
  | .error _ => .done (.error (.internal req.requestId (text "db error")))
  | .ok () => .done (.ok response)

/-- The slow path of a reservation, from the stored value on. -/
def replaceStale (rkey : Bytes) (stamp existing : UInt64) :
    Handler (Except ReserveError Unit) := do
  match ← compareAndSwap rkey (some (pendingValue existing)) (some (pendingValue stamp)) with
  | .error _ => return .error .db
  | .ok true => flushProgram
  | .ok false => return .error .alreadyUsed

def checkStale (rkey : Bytes) (stamp existing : UInt64) :
    Handler (Except ReserveError Unit) := do
  let now ← nowMsU64
  if saturatingSub now existing > state.nullifierPendingTtlMs then
    replaceStale rkey stamp existing
  else
    return .error .alreadyUsed

def lookProgram (rkey : Bytes) (stamp : UInt64) : Handler (Except ReserveError Unit) := do
  match ← getValue rkey with
  | .error _ => return .error .db
  | .ok none => return .error .alreadyUsed
  | .ok (some val) =>
      match decodeNullifierValue val with
      | none => return .error .alreadyUsed
      | some (status, existing) =>
          if status = pendingStatus then checkStale state rkey stamp existing
          else return .error .alreadyUsed

def program : Stage → Handler InferOutcome
  | verifying => .call (verifyCall state req) fun
      | .error e => .done (.error (mapZkError req.requestId e))
      | .ok verified => chargeTicket state req (ticketKey state.library req.ticket verified)
  | stamping rkey => chargeTicket state req rkey
  | reserving rkey stamp =>
      reserveNullifier rkey (pendingValue stamp) state.nullifierPendingTtlMs >>=
        afterReserve state req rkey stamp
  | flushingReserve rkey stamp => flushProgram >>= afterReserve state req rkey stamp
  | looking rkey stamp => lookProgram state rkey stamp >>= afterReserve state req rkey stamp
  | checkingStale rkey stamp existing =>
      checkStale state rkey stamp existing >>= afterReserve state req rkey stamp
  | replacing rkey stamp existing =>
      replaceStale rkey stamp existing >>= afterReserve state req rkey stamp
  | calling rkey stamp => answerReserved state req rkey (pendingValue stamp)
  | releasing rkey stamp problem =>
      releasePendingNullifier rkey (pendingValue stamp) >>= fun _ => .done (.error problem)
  | flushingRelease _ _ problem => flushProgram >>= fun _ => .done (.error problem)
  | stampingSpent rkey stamp response => do
      let spentNow ← nowMsU64
      markNullifierSpent rkey (pendingValue stamp) (spentValue spentNow) >>= afterMark req response
  | marking rkey stamp response spentStamp =>
      markNullifierSpent rkey (pendingValue stamp) (spentValue spentStamp) >>=
        afterMark req response
  | flushingMark _ response => flushProgram >>= afterMark req response

end Stage

namespace Progress

/-- The code that remains. -/
def program : Progress → Handler InferOutcome
  | waiting stage => stage.program state req
  | answered _ outcome => .done outcome

/-- Where a handler starts. -/
def start (env : Envelope) : Progress :=
  match checkRequest env req with
  | .error e => .answered none (.error e)
  | .ok () => .waiting .verifying

end Progress

/-- The code of a request is the code at its starting point. -/
theorem program_inferResult (env : Envelope) :
    (Progress.start req env).program state req = inferResult state env req := by
  unfold Progress.start inferResult
  cases checkRequest env req <;> rfl

/-- The reservation, cut at its fast path. -/
theorem reserveNullifier_eq (rkey : Bytes) (stamp : UInt64) :
    reserveNullifier rkey (pendingValue stamp) state.nullifierPendingTtlMs =
      .call (.compareAndSwap rkey none (some (pendingValue stamp))) fun
        | .error _ => .done (.error .db)
        | .ok true => Stage.flushProgram
        | .ok false => Stage.lookProgram state rkey stamp := by
  refine congrArg (Program.call _) (funext fun swapped => ?_)
  rcases swapped with e | _ | _
  · rfl
  · refine congrArg (Program.call _) (funext fun stored => ?_)
    rcases stored with e | _ | val
    · rfl
    · rfl
    · -- The value that is read back is the encoding of what it decodes to.
      simp only [bind_done]
      cases decoded : decodeNullifierValue val with
      | none => rfl
      | some pair =>
          obtain ⟨status, existing⟩ := pair
          simp only
          split
          next isPending =>
            subst isPending
            rw [encodeNullifierValue_of_decode decoded]
            refine congrArg (Program.call _) (funext fun now => ?_)
            simp only [bind_done]
            split <;> rfl
          next => rfl
  · rfl

/-- Every control point makes its call and goes on as the code at the control
point the answer leads to. -/
theorem program_waiting (stage : Stage) :
    stage.program state req =
      .call (stage.query state req) fun answer =>
        (stage.resume state req answer).program state req := by
  cases stage with
  | verifying =>
      refine congrArg (Program.call _) (funext fun answer => ?_)
      rcases answer with e | verified <;> rfl
  | stamping rkey =>
      refine congrArg (Program.call _) (funext fun now => ?_)
      simp only [bind_done]
      refine congrArg (Program.bind _) (funext fun reserved => ?_)
      rcases reserved with e | _ <;> rfl
  | reserving rkey stamp =>
      simp only [Stage.program, reserveNullifier_eq]
      refine congrArg (Program.call _) (funext fun swapped => ?_)
      rcases swapped with e | _ | _ <;> rfl
  | flushingReserve rkey stamp =>
      refine congrArg (Program.call _) (funext fun flushed => ?_)
      rcases flushed with e | _ <;> rfl
  | looking rkey stamp =>
      refine congrArg (Program.call _) (funext fun stored => ?_)
      rcases stored with e | _ | val
      · rfl
      · rfl
      · simp only [bind_done, Stage.resume, Stage.afterLook]
        cases decodeNullifierValue val with
        | none => rfl
        | some pair =>
            obtain ⟨status, existing⟩ := pair
            simp only
            split <;> rfl
  | checkingStale rkey stamp existing =>
      refine congrArg (Program.call _) (funext fun now => ?_)
      simp only [bind_done, Stage.resume]
      split <;> rfl
  | replacing rkey stamp existing =>
      refine congrArg (Program.call _) (funext fun swapped => ?_)
      rcases swapped with e | _ | _ <;> rfl
  | calling rkey stamp =>
      refine congrArg (Program.call _) (funext fun answer => ?_)
      simp only [bind_done, Stage.resume]
      cases readProviderAnswer state.library req.requestId answer with
      | error problem => rfl
      | ok response => rfl
  | releasing rkey stamp problem =>
      refine congrArg (Program.call _) (funext fun swapped => ?_)
      rcases swapped with e | _ | _ <;> rfl
  | flushingRelease rkey stamp problem =>
      refine congrArg (Program.call _) (funext fun flushed => ?_)
      rcases flushed with e | _ <;> rfl
  | stampingSpent rkey stamp response => rfl
  | marking rkey stamp response spentStamp =>
      refine congrArg (Program.call _) (funext fun swapped => ?_)
      rcases swapped with e | _ | _ <;> rfl
  | flushingMark rkey response =>
      refine congrArg (Program.call _) (funext fun flushed => ?_)
      rcases flushed with e | _ <;> rfl

end Handler

end ZkLlmGateway.Gateway
