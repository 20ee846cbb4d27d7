import ZkLlmGateway.Gateway.Stage
import ZkLlmGateway.Gateway.Payment

/-!
# A spent ticket and its answer

The handler marks a ticket spent before it serializes, pads and encrypts the
provider's answer.  Padding fails when the serialized payload is longer than
the response size of the class, and the ticket stays spent.  `delivered_iff_fits`
says that this is the only way in which a spent ticket is not answered.
-/

namespace ZkLlmGateway.Gateway

open ZkLlmGateway.Encoding ZkLlmGateway.Common ZkLlmGateway.Interaction

/-! ## Runs that mark a ticket spent -/

/-- The store does its work. -/
def Works : Program.Event Call Answer → Prop
  | ⟨.compareAndSwap _ _ _, .error _⟩ => False
  | ⟨.get _, .error _⟩ => False
  | ⟨.flush, .error _⟩ => False
  | _ => True

/-- A value is marked spent. -/
def Marks : Program.Event Call Answer → Prop
  | ⟨.compareAndSwap _ _ new, .ok true⟩ => ∃ stamp, new = some (spentValue stamp)
  | _ => False

/-- The provider answers a request with this result. -/
def Answers (state : AppState) (req : InferenceRequest) (response : ProviderChatCompletionResult)
    (event : Program.Event Call Answer) : Prop :=
  ∃ answer : HttpAnswer, event = ⟨providerCall state req, answer⟩ ∧
    readProviderAnswer state.library req.requestId answer = .ok response

theorem spentValue_ne_pendingValue (spentStamp stamp : UInt64) :
    spentValue spentStamp ≠ pendingValue stamp := by
  intro equal
  have status := (encodeNullifierValue_inj equal).1
  revert status
  decide

/-- The provider's answer a control point carries. -/
def Stage.response? : Stage → Option ProviderChatCompletionResult
  | stampingSpent _ _ response => some response
  | marking _ _ response _ => some response
  | flushingMark _ response => some response
  | _ => none

def Progress.response? : Progress → Option ProviderChatCompletionResult
  | waiting stage => stage.response?
  | answered _ (.ok response) => some response
  | answered _ (.error _) => none

/-- The ticket has been marked spent. -/
def Progress.Settled : Progress → Prop
  | waiting (.flushingMark _ _) => True
  | answered _ (.ok _) => True
  | _ => False

section Runs

variable {state : AppState} {req : InferenceRequest}

/-- A provider answer is carried on, or has just been read. -/
theorem response?_resume {stage : Stage} {answer : Answer (stage.query state req)}
    {response : ProviderChatCompletionResult}
    (carried : (stage.resume state req answer).response? = some response) :
    stage.response? = some response ∨
      Answers state req response ⟨stage.query state req, answer⟩ := by
  cases stage with
  | calling rkey stamp =>
      cases read : readProviderAnswer state.library req.requestId answer with
      | error problem =>
          simp only [Stage.resume, read] at carried
          contradiction
      | ok result =>
          simp only [Stage.resume, read] at carried
          cases carried
          exact .inr ⟨answer, rfl, read⟩
  | looking rkey stamp =>
      rcases answer with e | stored
      · contradiction
      · simp only [Stage.resume, Stage.afterLook] at carried
        split at carried
        next => contradiction
        next =>
          split at carried
          next => contradiction
          next => split at carried <;> contradiction
  | checkingStale rkey stamp existing =>
      simp only [Stage.resume] at carried
      split at carried <;> contradiction
  | verifying => rcases answer with e | verified <;> contradiction
  | stamping rkey => contradiction
  | flushingRelease rkey stamp problem => contradiction
  | reserving rkey stamp => rcases answer with e | _ | _ <;> contradiction
  | replacing rkey stamp existing => rcases answer with e | _ | _ <;> contradiction
  | releasing rkey stamp problem => rcases answer with e | _ | _ <;> contradiction
  | flushingReserve rkey stamp => rcases answer with e | _ <;> contradiction
  | stampingSpent rkey stamp result => exact .inl carried
  | marking rkey stamp result spentStamp =>
      rcases answer with e | _ | _
      · contradiction
      · contradiction
      · exact .inl carried
  | flushingMark rkey result =>
      rcases answer with e | _
      · contradiction
      · exact .inl carried

/-- Only the mark of a reservation writes a spent value. -/
theorem settled_of_marks {stage : Stage} {answer : Answer (stage.query state req)}
    (marks : Marks ⟨stage.query state req, answer⟩) : (stage.resume state req answer).Settled := by
  cases stage with
  | marking rkey stamp response spentStamp =>
      rcases answer with e | _ | _
      · exact marks.elim
      · exact marks.elim
      · trivial
  | reserving rkey stamp =>
      rcases answer with e | _ | _
      · exact marks.elim
      · exact marks.elim
      · obtain ⟨spentStamp, equal⟩ := marks
        exact absurd (Option.some.inj equal).symm (spentValue_ne_pendingValue _ _)
  | replacing rkey stamp existing =>
      rcases answer with e | _ | _
      · exact marks.elim
      · exact marks.elim
      · obtain ⟨spentStamp, equal⟩ := marks
        exact absurd (Option.some.inj equal).symm (spentValue_ne_pendingValue _ _)
  | releasing rkey stamp problem =>
      rcases answer with e | _ | _
      · exact marks.elim
      · exact marks.elim
      · obtain ⟨spentStamp, equal⟩ := marks
        contradiction
  | _ => exact marks.elim

/-- A store that works turns a mark into an answer. -/
theorem settled_resume {stage : Stage} {answer : Answer (stage.query state req)}
    (settled : (Progress.waiting stage).Settled) (works : Works ⟨stage.query state req, answer⟩) :
    (stage.resume state req answer).Settled := by
  cases stage with
  | flushingMark rkey response =>
      rcases answer with e | _
      · exact works.elim
      · trivial
  | _ => exact settled.elim

/-- What the calls so far say about the progress of a request. -/
structure Accounted (state : AppState) (req : InferenceRequest)
    (events : List (Program.Event Call Answer)) (progress : Progress) : Prop where
  answered : ∀ response, progress.response? = some response →
    ∃ event ∈ events, Answers state req response event
  marked : (∃ event ∈ events, Marks event) → progress.Settled

theorem Accounted.resume {events : List (Program.Event Call Answer)} {stage : Stage}
    (accounted : Accounted state req events (.waiting stage))
    {answer : Answer (stage.query state req)} (works : Works ⟨stage.query state req, answer⟩) :
    Accounted state req (events ++ [⟨stage.query state req, answer⟩])
      (stage.resume state req answer) := by
  constructor
  · intro response carried
    rcases response?_resume carried with before | now
    · obtain ⟨event, member, answers⟩ := accounted.answered response before
      exact ⟨event, List.mem_append_left _ member, answers⟩
    · exact ⟨_, List.mem_append_right _ (List.mem_singleton.mpr rfl), now⟩
  · rintro ⟨event, member, marks⟩
    rcases List.mem_append.mp member with before | now
    · exact settled_resume (accounted.marked ⟨event, before, marks⟩) works
    · rw [List.mem_singleton] at now
      subst now
      exact settled_of_marks marks

/-- What holds so far holds of the whole run. -/
theorem Accounted.runs {events later : List (Program.Event Call Answer)} {progress : Progress}
    {outcome : InferOutcome} (accounted : Accounted state req events progress)
    (works : ∀ event ∈ later, Works event)
    (runs : Program.Runs (progress.program state req) later outcome) :
    ∃ rkey, Accounted state req (events ++ later) (.answered rkey outcome) := by
  induction later generalizing events progress with
  | nil =>
      cases progress with
      | answered rkey result =>
          obtain ⟨_, rfl⟩ := Program.runs_done_iff.mp runs
          exact ⟨rkey, by simpa using accounted⟩
      | waiting stage =>
          rw [Progress.program, program_waiting] at runs
          obtain ⟨_, _, impossible, _⟩ := Program.runs_call_iff.mp runs
          contradiction
  | cons event rest inductionHypothesis =>
      cases progress with
      | answered rkey result =>
          obtain ⟨impossible, _⟩ := Program.runs_done_iff.mp runs
          contradiction
      | waiting stage =>
          rw [Progress.program, program_waiting] at runs
          obtain ⟨answer, _, ⟨⟩, remaining⟩ := Program.runs_call_iff.mp runs
          obtain ⟨rkey, whole⟩ := inductionHypothesis
            (accounted.resume (works _ List.mem_cons_self))
            (fun event member => works event (List.mem_cons_of_mem _ member)) remaining
          rw [List.append_assoc] at whole
          exact ⟨rkey, whole⟩

/-- A run of the handler that marks the ticket spent ends with what the provider
answered. -/
theorem outcome_of_marks {env : Envelope} {events : List (Program.Event Call Answer)}
    {outcome : InferOutcome} (runs : Program.Runs (inferResult state env req) events outcome)
    (works : ∀ event ∈ events, Works event) (marks : ∃ event ∈ events, Marks event) :
    checkRequest env req = .ok () ∧ ∃ response, outcome = .ok response ∧
      ∃ event ∈ events, Answers state req response event := by
  rw [← program_inferResult] at runs
  have fresh : Accounted state req [] (Progress.start req env) := by
    constructor
    · intro response carried
      unfold Progress.start at carried
      split at carried <;> contradiction
    · rintro ⟨event, member, _⟩
      contradiction
  obtain ⟨rkey, accounted⟩ := fresh.runs works runs
  rw [List.nil_append] at accounted
  constructor
  · cases checked : checkRequest env req with
    | ok value => rfl
    | error e =>
        simp only [Progress.start, checked] at runs
        obtain ⟨rfl, _⟩ := Program.runs_done_iff.mp runs
        obtain ⟨_, member, _⟩ := marks
        contradiction
  · cases outcome with
    | error e => exact (accounted.marked marks).elim
    | ok response => exact ⟨response, rfl, accounted.answered response rfl⟩

end Runs

/-! ## The encrypted answer -/

/-- The serialized length of the payload that carries a provider body. -/
def okPayloadBytes (req : InferenceRequest) (body : Json) : Nat :=
  133 + byteLen (Json.renderString req.model) +
    byteLen (Json.renderString (extractProviderOutput body)) +
    req.tokenClass.serdeName.length + byteLen body.render

theorem byteLen_render_le_okPayloadBytes (req : InferenceRequest) (body : Json) :
    byteLen body.render ≤ okPayloadBytes req body :=
  Nat.le_add_left _ _

/-- What the handler returns once its outcome is sealed under a nonce. -/
def sealedResult (state : AppState) (env : Envelope) (req : InferenceRequest) (nonce : Block 12)
    (outcome : InferOutcome) : Except ApiError Envelope :=
  match sealResponseAtGateway state.primitives state.aead nonce state.keypair env
      (resultPayload req outcome).toVec with
  | .error e => .error (.ofInternal (some req.requestId) (text "encrypt: " ++ e.message))
  | .ok answer => .ok answer

theorem sealedResult_eq_ok_iff {state : AppState} {env answer : Envelope} {req : InferenceRequest}
    {nonce : Block 12} {outcome : InferOutcome} :
    sealedResult state env req nonce outcome = .ok answer ↔
      sealResponseAtGateway state.primitives state.aead nonce state.keypair env
        (resultPayload req outcome).toVec = .ok answer := by
  unfold sealedResult
  split
  next problem => simp_all
  next sealedEnv isSealed => rw [isSealed]; simp

/-- The handler returns an envelope that opens, for the client that sealed the
request, to the payload that carries the provider's answer. -/
def Delivered (state : AppState) (env : Envelope) (req : InferenceRequest)
    (response : ProviderChatCompletionResult) (result : Except ApiError Envelope) : Prop :=
  ∃ answer, result = .ok answer ∧
    ∀ ephSecret clientNonce nonce tokenClass requestId requestJson context,
      sealRequestForGateway state.primitives state.aead ephSecret clientNonce nonce
        (state.keypair.publicBytes state.primitives) tokenClass requestId requestJson =
          .ok (env, context) →
      openResponse state.primitives state.aead context answer =
        .ok (resultPayload req (.ok response)).toVec

section Delivery

variable {state : AppState} {env : Envelope} {req : InferenceRequest}
  {events : List (Program.Event Call Answer)} {result : Except ApiError Envelope}

/-- A run of the whole handler is a run of its first part, a nonce and a seal. -/
theorem runs_inferCanonical_iff :
    Program.Runs (inferCanonical state env req) events result ↔
      ∃ first outcome nonce, events = first ++ [⟨.fillNonce, nonce⟩] ∧
        Program.Runs (inferResult state env req) first outcome ∧
        result = sealedResult state env req nonce outcome := by
  rw [inferCanonical, Program.runs_bind_iff]
  constructor
  · rintro ⟨first, second, outcome, rfl, runsFirst, runsSecond⟩
    obtain ⟨nonce, rest, rfl, sealing⟩ := Program.runs_call_iff.mp runsSecond
    simp only [Program.bind_done] at sealing
    cases isSealed : sealResponseAtGateway state.primitives state.aead nonce state.keypair env
        (resultPayload req outcome).toVec with
    | error e =>
        rw [isSealed] at sealing
        obtain ⟨rfl, rfl⟩ := Program.runs_done_iff.mp sealing
        exact ⟨first, outcome, nonce, rfl, runsFirst, by simp only [sealedResult, isSealed]⟩
    | ok answer =>
        rw [isSealed] at sealing
        obtain ⟨rfl, rfl⟩ := Program.runs_done_iff.mp sealing
        exact ⟨first, outcome, nonce, rfl, runsFirst, by simp only [sealedResult, isSealed]⟩
  · rintro ⟨first, outcome, nonce, rfl, runsFirst, rfl⟩
    refine ⟨first, [⟨.fillNonce, nonce⟩], outcome, rfl, runsFirst,
      Program.runs_call_iff.mpr ⟨nonce, [], rfl, ?_⟩⟩
    simp only [Program.bind_done, sealedResult]
    cases sealResponseAtGateway state.primitives state.aead nonce state.keypair env
        (resultPayload req outcome).toVec with
    | error e => exact .done _
    | ok answer => exact .done _

theorem output_of_readProviderAnswer {response : ProviderChatCompletionResult}
    {answer : HttpAnswer}
    (read : readProviderAnswer state.library req.requestId answer = .ok response) :
    response.output = extractProviderOutput response.body := by
  cases answer with
  | sendFailed => contradiction
  | readFailed status => contradiction
  | response status bytes =>
      simp only [readProviderAnswer] at read
      split at read
      next =>
        split at read
        next => contradiction
        next =>
          cases read
          rfl
      next => contradiction

theorem output_of_answers {response : ProviderChatCompletionResult}
    {event : Program.Event Call Answer} (answers : Answers state req response event) :
    response.output = extractProviderOutput response.body := by
  obtain ⟨answer, _, read⟩ := answers
  exact output_of_readProviderAnswer read

theorem tokenClass_of_checkRequest (checked : checkRequest env req = .ok ()) :
    req.tokenClass = env.tokenClass := by
  unfold checkRequest at checked
  split at checked
  next => contradiction
  next same => exact not_ne_iff.mp same

/-- The length of the payload is known from the request and the body. -/
theorem length_resultPayload {response : ProviderChatCompletionResult}
    (output : response.output = extractProviderOutput response.body) :
    (resultPayload req (.ok response)).toVec.length = okPayloadBytes req response.body := by
  rw [resultPayload, GatewayEnvelopePayload.length_toVec_ok, output]
  rfl

/-- The provider's answer is delivered exactly when the payload that carries it fits. -/
theorem delivered_sealedResult_iff (correct : Correct state.primitives state.aead)
    {plaintext : Bytes}
    (opened : openRequestAtGateway state.primitives state.aead state.keypair env = .ok plaintext)
    (checked : checkRequest env req = .ok ()) {response : ProviderChatCompletionResult}
    (output : response.output = extractProviderOutput response.body) (nonce : Block 12) :
    Delivered state env req response (sealedResult state env req nonce (.ok response)) ↔
      okPayloadBytes req response.body ≤ req.tokenClass.envelopeResponsePlaintextBytes := by
  have tokenClass : req.tokenClass = env.tokenClass := tokenClass_of_checkRequest checked
  have fits := sealResponseAtGateway_isOk_iff correct opened nonce
    (resultPayload req (.ok response)).toVec
  rw [length_resultPayload output, ← tokenClass] at fits
  rw [← fits]
  constructor
  · rintro ⟨answer, returned, _⟩
    exact ⟨answer, sealedResult_eq_ok_iff.mp returned⟩
  · rintro ⟨answer, isSealed⟩
    refine ⟨answer, sealedResult_eq_ok_iff.mpr isSealed, ?_⟩
    intro ephSecret clientNonce requestNonce tokenClass requestId requestJson context requested
    obtain ⟨data, payload⟩ :=
      GatewayEnvelopePayload.toVec_eq_concat (resultPayload req (.ok response))
    rw [payload] at isSealed ⊢
    rw [openResponse_of_seal correct requested isSealed, trimZeroPadding_concat (by decide)]

/-- **A spent ticket is a delivered answer exactly when the payload fits.**  In a
complete run without store errors that marks the ticket of an opened request
spent, the provider has answered, and the answer is delivered if and only if
the payload that carries it is no longer than the response size of the class. -/
theorem delivered_iff_fits (correct : Correct state.primitives state.aead) {plaintext : Bytes}
    (opened : openRequestAtGateway state.primitives state.aead state.keypair env = .ok plaintext)
    (runs : Program.Runs (inferCanonical state env req) events result)
    (works : ∀ event ∈ events, Works event) (marks : ∃ event ∈ events, Marks event) :
    ∃ response, (∃ event ∈ events, Answers state req response event) ∧
      (Delivered state env req response result ↔
        okPayloadBytes req response.body ≤ req.tokenClass.envelopeResponsePlaintextBytes) := by
  obtain ⟨first, outcome, nonce, rfl, runsFirst, rfl⟩ := runs_inferCanonical_iff.mp runs
  have marksFirst : ∃ event ∈ first, Marks event := by
    obtain ⟨event, member, isMark⟩ := marks
    rcases List.mem_append.mp member with before | last
    · exact ⟨event, before, isMark⟩
    · rw [List.mem_singleton] at last
      subst last
      exact isMark.elim
  obtain ⟨checked, response, rfl, event, member, answers⟩ := outcome_of_marks runsFirst
    (fun event member => works event (List.mem_append_left _ member)) marksFirst
  refine ⟨response, ⟨event, List.mem_append_left _ member, answers⟩, ?_⟩
  exact delivered_sealedResult_iff correct opened checked (output_of_answers answers) nonce

/-- A handler that waits goes on with the answer to its call. -/
theorem runs_waiting (stage : Stage) (answer : Answer (stage.query state req))
    {later : List (Program.Event Call Answer)} {outcome : InferOutcome}
    (runs : Program.Runs ((stage.resume state req answer).program state req) later outcome) :
    Program.Runs ((Progress.waiting stage).program state req)
      (⟨stage.query state req, answer⟩ :: later) outcome := by
  rw [Progress.program, program_waiting]
  exact .call answer runs

/-- The calls of a request whose ticket is marked spent. -/
def paidEvents (state : AppState) (req : InferenceRequest) (verified : VerifiedTicket)
    (answer : HttpAnswer) (stamp spentStamp : UInt64) : List (Program.Event Call Answer) :=
  let rkey := ticketKey state.library req.ticket verified
  [⟨verifyCall state req, .ok verified⟩, ⟨.now, stamp⟩,
    ⟨.compareAndSwap rkey none (some (pendingValue stamp)), .ok true⟩, ⟨.flush, .ok ()⟩,
    ⟨providerCall state req, answer⟩, ⟨.now, spentStamp⟩,
    ⟨.compareAndSwap rkey (some (pendingValue stamp)) (some (spentValue spentStamp)), .ok true⟩,
    ⟨.flush, .ok ()⟩]

/-- The run of a request for which everything goes well up to the seal. -/
theorem runs_paid (checked : checkRequest env req = .ok ()) (verified : VerifiedTicket)
    (stamp spentStamp : UInt64) {answer : HttpAnswer} {response : ProviderChatCompletionResult}
    (read : readProviderAnswer state.library req.requestId answer = .ok response) :
    Program.Runs (inferResult state env req) (paidEvents state req verified answer stamp spentStamp)
      (.ok response) := by
  rw [← program_inferResult, Progress.start, checked]
  apply runs_waiting .verifying (.ok verified)
  apply runs_waiting (.stamping _) stamp
  apply runs_waiting (.reserving _ stamp) (.ok true)
  apply runs_waiting (.flushingReserve _ stamp) (.ok ())
  apply runs_waiting (.calling _ stamp) answer
  simp only [Stage.resume, read]
  apply runs_waiting (.stampingSpent _ stamp response) spentStamp
  apply runs_waiting (.marking _ stamp response spentStamp) (.ok true)
  apply runs_waiting (.flushingMark _ response) (.ok ())
  exact .done _

end Delivery

/-! ## A request that is paid -/

/-- A gateway whose provider answers every request with this body. -/
def answeringState (body : Json) : AppState :=
  { plainState with
    library := { plainState.library with
      readJson := fun _ => some body
      readRequest := fun _ => .ok plainRequest } }

def paidContext : ClientCryptoContext where
  ephSecretBytes := Block.replicate 32 0
  ephPubBytes := Block.replicate 32 0
  gatewayPublicBytes := Block.replicate 32 1
  clientNonceBytes := Block.replicate 32 0
  requestId := Block.replicate 16 0
  tokenClass := .c256

/-- The envelope of a client's request. -/
def paidEnvelope : Envelope where
  version := Envelope.VERSION
  tokenClass := .c256
  requestId := Block.replicate 16 0
  clientNonceB64 := Base64.encode (List.replicate 32 0)
  kemPubB64 := Base64.encode (List.replicate 32 0)
  nonceB64 := Base64.encode (List.replicate 12 0)
  ciphertextB64 := Base64.encode ([1] ++ List.replicate 8191 0)

theorem sealRequest_paid :
    sealRequestForGateway .transparent (.transparent _) (Block.replicate 32 0)
      (Block.replicate 32 0) (Block.replicate 12 0) (Block.replicate 32 1) .c256
      (Block.replicate 16 0) [1] = .ok (paidEnvelope, paidContext) :=
  sealRequestForGateway_eq_ok_iff.mpr ⟨rfl, ⟨rfl, rfl, rfl, rfl, rfl⟩, rfl,
    [1] ++ List.replicate 8191 0, _, rfl, rfl, rfl, rfl⟩

theorem openRequest_paid (body : Json) :
    openRequestAtGateway (answeringState body).primitives (answeringState body).aead
      (answeringState body).keypair paidEnvelope = .ok [1] := by
  have trimmed : trimZeroPadding [1] = [1] := by decide
  calc
    openRequestAtGateway .transparent (.transparent _) (answeringState body).keypair paidEnvelope =
        .ok (trimZeroPadding [1]) :=
      openRequestAtGateway_of_seal correct_transparent sealRequest_paid
    _ = .ok [1] := by rw [trimmed]

/-- The run of the request, up to its answer. -/
def answeredEvents (body : Json) : List (Program.Event Call Answer) :=
  paidEvents (answeringState body) plainRequest ⟨.c256, []⟩ (.response 200 []) 100 100 ++
    [⟨.fillNonce, Block.replicate 12 0⟩]

def answeredResult (body : Json) : Except ApiError Envelope :=
  sealedResult (answeringState body) paidEnvelope plainRequest (Block.replicate 12 0)
    (.ok ⟨body, extractProviderOutput body⟩)

theorem runs_answered (body : Json) :
    Program.Runs (inferCanonical (answeringState body) paidEnvelope plainRequest)
      (answeredEvents body) (answeredResult body) :=
  runs_inferCanonical_iff.mpr ⟨_, _, _, rfl, runs_paid (by rfl) _ _ _ rfl, rfl⟩

theorem works_answered (body : Json) : ∀ event ∈ answeredEvents body, Works event := by
  simp [answeredEvents, paidEvents, Works, verifyCall, providerCall]

theorem marks_answered (body : Json) : ∃ event ∈ answeredEvents body, Marks event :=
  ⟨(answeredEvents body).get ⟨6, Nat.le_of_ble_eq_true rfl⟩, List.get_mem _ _, 100, rfl⟩

/-- A body that is a text of 9000 letters. -/
def longBody : Json :=
  .string (List.replicate 9000 'a')

/-- A ticket is spent and the answer is not delivered: not every run without
store errors that marks the ticket of an opened request spent ends with the
provider's answer. -/
theorem spent_not_delivered :
    ¬∀ (state : AppState) (env : Envelope) (req : InferenceRequest) (plaintext : Bytes)
      (events : List (Program.Event Call Answer)) (result : Except ApiError Envelope),
      Correct state.primitives state.aead →
      openRequestAtGateway state.primitives state.aead state.keypair env = .ok plaintext →
      state.library.readRequest plaintext = .ok req →
      Program.Runs (inferCanonical state env req) events result →
      (∀ event ∈ events, Works event) → (∃ event ∈ events, Marks event) →
      ∃ response, (∃ event ∈ events, Answers state req response event) ∧
        Delivered state env req response result := by
  intro claim
  obtain ⟨_, _, answer, returned, _⟩ :=
    claim (answeringState longBody) paidEnvelope plainRequest [1]
    (answeredEvents longBody) (answeredResult longBody) correct_transparent
    (openRequest_paid longBody) rfl (runs_answered longBody) (works_answered longBody)
    (marks_answered longBody)
  have fits := (sealResponseAtGateway_isOk_iff correct_transparent (openRequest_paid longBody) _
    _).mp
    ⟨answer, sealedResult_eq_ok_iff.mp returned⟩
  rw [length_resultPayload rfl] at fits
  have body : 9000 ≤ byteLen longBody.render := by
    rw [longBody, Json.render, Json.byteLen_renderString]
    have letters := length_le_byteLen (List.replicate 9000 'a')
    rw [List.length_replicate] at letters
    omega
  have size : paidEnvelope.tokenClass.envelopeResponsePlaintextBytes = 8192 := rfl
  have small := (byteLen_render_le_okPayloadBytes _ longBody).trans fits
  omega

theorem delivered_iff_fits_answered :
    ∃ response, (∃ event ∈ answeredEvents .null,
        Answers (answeringState .null) plainRequest response event) ∧
      (Delivered (answeringState .null) paidEnvelope plainRequest response
          (answeredResult .null) ↔
        okPayloadBytes plainRequest response.body ≤
          plainRequest.tokenClass.envelopeResponsePlaintextBytes) :=
  delivered_iff_fits correct_transparent (openRequest_paid .null) (runs_answered .null)
    (works_answered .null) (marks_answered .null)

end ZkLlmGateway.Gateway
