import ZkLlmGateway.Client.Agreement
import ZkLlmGateway.Client.Replies
import ZkLlmGateway.Gateway.Observation
import ZkLlmGateway.Relay.Forward

/-!
# An exchange from end to end

A prompt is posted through the relay, and what the client makes of the reply is known
from what the gateway has done: the ticket is charged or it is not, and the payload of a
charged request may be too long for its class or too deep for the client.  A reply that is
lost to the relay says nothing of that.
-/

namespace ZkLlmGateway.Client

open ZkLlmGateway.Encoding ZkLlmGateway.Common ZkLlmGateway.Interaction
open ZkLlmGateway.Gateway (AppState Server HttpAnswer InferOutcome Charged isSuccess)

/-! ## What the parties share -/

/-- A gateway behind a relay. -/
structure Link where
  relay : Server
  gateway : Server
  gatewayUrl : Text
  state : AppState

/-- Every party reads with one codec, and the gateway's primitives are what they should be. -/
structure Link.Works (link : Link) (codec : Codec) : Prop where
  faithful : codec.Faithful
  relayCodec : link.relay.codec = codec
  gatewayCodec : link.gateway.codec = codec
  correct : Correct link.state.primitives link.state.aead
  tagged : Tagged link.state.aead
  readsJson : ∀ bytes body, link.state.library.readJson bytes = some body →
    Json.Numbers codec.readNumber body
  readsRequest : ∀ bytes received, ReadsRequest codec.parse codec bytes received →
    ∃ request, link.state.library.readRequest bytes = .ok request ∧
      ReadsRequest codec.parse codec bytes request

/-- Every reply to a post through the relay. -/
def Link.Replies (link : Link) (posted : Posted) (fate : Relay.Fate)
    (events : List (Program.Event Gateway.Call Gateway.Answer)) (answer : HttpAnswer) : Prop :=
  ∃ reply, Program.Runs (Relay.relayed link.relay link.gateway link.state fate link.gatewayUrl
    posted.envelope.toVec) events reply ∧ answer = .response reply.status reply.body

/-! ## How an exchange ends -/

/-- What the client is left with, by what the gateway has done. -/
inductive Concludes (library : ReplyLibrary) (agent : AgentRuntime) (order : List Text)
    (state : AppState) (env : Envelope) (received : InferenceRequest)
    (events : List (Program.Event Gateway.Call Gateway.Answer)) : Except SendError Text → Prop
  | refused (error : Gateway.EncryptedError)
      (runs : Program.Runs (Gateway.inferResult state env received) events (.error error))
      (uncharged : ∀ response, ¬Charged state received events response) :
      Concludes library agent order state env received events
        (.error (.gateway error.code error.message))
  | delivered (response : Gateway.ProviderChatCompletionResult)
      (charged : Charged state received events response)
      (short : Gateway.okPayloadBytes received response.body ≤
        env.tokenClass.envelopeResponsePlaintextBytes)
      (shallow : response.body.depth ≤ maxDepth - 2) :
      Concludes library agent order state env received events
        (.ok (agent.redactor.rehydrate order response.output))
  | tooDeep (response : Gateway.ProviderChatCompletionResult)
      (charged : Charged state received events response)
      (short : Gateway.okPayloadBytes received response.body ≤
        env.tokenClass.envelopeResponsePlaintextBytes)
      (deep : ¬response.body.depth ≤ maxDepth - 2) :
      Concludes library agent order state env received events (.error .parsePayload)
  | tooLong (response : Gateway.ProviderChatCompletionResult)
      (charged : Charged state received events response)
      (long : env.tokenClass.envelopeResponsePlaintextBytes <
        Gateway.okPayloadBytes received response.body) :
      Concludes library agent order state env received events
        (.error (.http (library.displayStatus 502)
          (library.fromUtf8Lossy (utf8 (text "gateway error")))))

/-- What the client is left with when the reply is lost to the relay. -/
def lostError (library : ReplyLibrary) (loss : Relay.Loss) : SendError :=
  .http (library.displayStatus loss.relayError.status)
    (library.fromUtf8Lossy (utf8 loss.relayError.message))

/-! ## The post -/

section Posting

variable {engine : Engine} {draws : Nat → Fin 12} {prompt : PromptSource} {redactor : Redactor}
  {remoteMessages : List ChatMessage} {state : AppState} {agent : AgentRuntime}
  {random : SendRandomness} {source after : FileTicketSource} {write : FileWrite} {posted : Posted}

/-- The messages of a prompt have a role and a content. -/
theorem BuildsRemoteMessages.bare
    (built : BuildsRemoteMessages engine draws prompt redactor remoteMessages) :
    Bare remoteMessages := by
  obtain ⟨within, ends, rest⟩ := built
  have wellFormed := (wellFormed_assembled prompt engine redactor).enforcesBudget ends
  split at rest
  next =>
    obtain ⟨padded, isPadded, again⟩ := rest
    unfold PadsSystemMessage at isPadded
    split at isPadded
    next =>
      subst isPadded
      exact (wellFormed.enforcesBudget again).bare
    next need needs =>
      obtain ⟨filler, isFiller, trims⟩ := isPadded
      have block := padded_modify wellFormed needs isFiller
      obtain rfl := trims.unique (.of_stop (trimRound_of_le block.within))
      exact (block.wellFormed.enforcesBudget again).bare
  next =>
    rw [rest]
    exact wellFormed.bare

/-- What is posted is the sealed request. -/
theorem sealed_of_postRequest
    (posts : agent.postRequest state random remoteMessages source write = (.ok posted, after)) :
    (∃ ticket, posted.request =
      { agent.requestFor random.requestId remoteMessages with ticket := ticket }) ∧
    sealRequestForGateway state.primitives state.aead random.ephSecret random.clientNonce
      random.nonce agent.gatewayPublicBytes agent.tokenClass random.requestId
      (utf8 posted.request.toJson.render) = .ok (posted.envelope, posted.context) := by
  unfold AgentRuntime.postRequest at posts
  simp only at posts
  split at posts
  next => cases posts
  next ticket left taken =>
    split at posts
    next => cases posts
    next env context isSealed =>
      cases posts
      exact ⟨⟨ticket, rfl⟩, isSealed⟩

/-- A request of an agent is read as it is. -/
theorem reads_requestFor {codec : Codec} (faithful : codec.Faithful) (agent : AgentRuntime)
    (random : SendRandomness) (bare : Bare remoteMessages) (ticket : ZkTicket)
    {request : InferenceRequest}
    (isRequest : request =
      { agent.requestFor random.requestId remoteMessages with ticket := ticket }) :
    request.Proper ∧ codec.Reads request ∧ Json.Numbers codec.readNumber request.toJson ∧
      request.toJson.depth ≤ maxDepth := by
  subst isRequest
  have nothing : ∀ names, ProperEntries names [] := fun names =>
    ⟨by simp, List.nodup_nil, by simp, by simp⟩
  refine ⟨⟨fun message member => ?_, nofun, nofun, nothing _⟩,
    ⟨faithful.readUuid _, nofun⟩, ?_, ?_⟩
  · rw [bare message member]
    exact nothing _
  · have messages : Json.Numbers codec.readNumber
        (.array (remoteMessages.map ChatMessage.toJson)) :=
      numbers_messages fun message member => by simp [bare message member]
    exact ⟨trivial, trivial, messages, trivial, trivial, trivial,
      ⟨trivial, trivial, trivial, trivial, trivial⟩, trivial⟩
  · have messages : ∀ message ∈ remoteMessages, message.toJson.depth ≤ 125 := by
      intro message member
      simp [ChatMessage.toJson, bare message member, Json.depth, Json.depthFields]
    have limit : maxDepth = 126 + 1 := rfl
    have list : (Json.array (remoteMessages.map ChatMessage.toJson)).depth ≤ 125 + 1 := by
      rw [Json.depth_array_le_iff, List.forall_mem_map]
      exact messages
    rw [InferenceRequest.toJson, limit, Json.depth_object_le_iff]
    simp only [AgentRuntime.requestFor, optionJson, List.cons_append, List.nil_append,
      Option.map_none, Option.toList_none, List.append_nil, List.forall_mem_cons]
    have ticketDepth : ticket.toJson.depth ≤ 126 := Nat.le_of_ble_eq_true rfl
    exact ⟨Nat.zero_le _, Nat.zero_le _, list, Nat.zero_le _, Nat.zero_le _, Nat.zero_le _,
      ticketDepth, fun _ member => absurd member List.not_mem_nil⟩

end Posting

/-! ## The reply -/

section Replying

variable {codec : Codec} {link : Link} {agent : AgentRuntime} {order : List Text}
  {posted : Posted} {displayStatus : Nat → Text} {fromUtf8Lossy : Bytes → Text}

theorem readPayload_toVec (faithful : codec.Faithful) {payload : GatewayEnvelopePayload}
    (numbers : Json.Numbers codec.readNumber payload.toJson) :
    readPayload codec payload.toVec =
      if payload.toJson.depth ≤ maxDepth then some (asRead payload) else none := by
  rw [readPayload, GatewayEnvelopePayload.toVec, Codec.parse, Json.parse_render_eq numbers]
  split
  next => rw [Option.bind_some, readEnvelopePayload_toJson faithful.readUuid]
  next => rfl

theorem trimZeroPadding_toVec (payload : GatewayEnvelopePayload) :
    trimZeroPadding payload.toVec = payload.toVec := by
  obtain ⟨data, isVec⟩ := payload.toVec_eq_concat
  rw [isVec, trimZeroPadding_concat (by decide)]

/-- The end of a call whose reply is decrypted. -/
def conclude (agent : AgentRuntime) (posted : Posted) (order : List Text) :
    Option GatewayEnvelopePayload → Except SendError Text
  | none => .error .parsePayload
  | some (.ok response) =>
      if response.requestId ≠ posted.request.requestId then .error .responseIdMismatch
      else .ok (agent.redactor.rehydrate order response.output)
  | some (.err error) =>
      if ∃ responseRequestId ∈ error.requestId,
          responseRequestId ≠ posted.request.requestId then .error .errorIdMismatch
      else .error (.gateway error.code error.message)

/-- The client decrypts what the gateway has sealed. -/
theorem receive_of_seal (works : link.Works codec) {random : SendRandomness}
    {tokenClass : TokenClass} {requestId : Uuid} {requestJson : Bytes}
    (requested : sealRequestForGateway link.state.primitives link.state.aead random.ephSecret
      random.clientNonce random.nonce (link.state.keypair.publicBytes link.state.primitives)
      tokenClass requestId requestJson = .ok (posted.envelope, posted.context))
    {nonce : Block 12} {payload : GatewayEnvelopePayload} {answer : Envelope}
    (responded : sealResponseAtGateway link.state.primitives link.state.aead nonce
      link.state.keypair posted.envelope payload.toVec = .ok answer) :
    agent.receiveResponse (replyLibrary codec displayStatus fromUtf8Lossy) link.state posted order
        (.response 200 answer.toVec) =
      conclude agent posted order (readPayload codec payload.toVec) := by
  have success : (!isSuccess 200) = false := by decide
  have isEnvelope : (replyLibrary codec displayStatus fromUtf8Lossy).readEnvelope answer.toVec =
      some answer := Codec.readEnvelope_toVec works.faithful answer
  have opened := openResponse_of_seal works.correct requested responded
  rw [trimZeroPadding_toVec] at opened
  simp only [AgentRuntime.receiveResponse, success, isEnvelope, opened, Bool.false_eq_true,
    if_false]
  rfl

/-- The gateway can answer what was posted. -/
theorem exists_answer (works : link.Works codec)
    (isKey : agent.gatewayPublicBytes = link.state.keypair.publicBytes link.state.primitives)
    {random : SendRandomness} {remoteMessages : List ChatMessage}
    {source after : FileTicketSource} {write : FileWrite}
    (posts : agent.postRequest link.state random remoteMessages source write =
      (.ok posted, after)) {output : Text}
    (short : (GatewayEnvelopePayload.ok ⟨random.requestId, agent.model, output, agent.tokenClass,
      none⟩).toVec.length ≤ agent.tokenClass.envelopeResponsePlaintextBytes) :
    ∃ answer, agent.receiveResponse (replyLibrary codec displayStatus fromUtf8Lossy) link.state
      posted order answer = .ok (agent.redactor.rehydrate order output) := by
  obtain ⟨⟨ticket, isPosted⟩, requested⟩ := sealed_of_postRequest posts
  obtain ⟨isContext, carries, _⟩ := sealRequestForGateway_eq_ok_iff.mp requested
  have sameClass : posted.envelope.tokenClass = agent.tokenClass := by
    rw [isContext] at carries
    exact carries.tokenClass
  have sameId : posted.request.requestId = random.requestId := by
    rw [isPosted]
    rfl
  rw [isKey] at requested
  have opened := openRequestAtGateway_of_seal works.correct requested
  obtain ⟨answer, responded⟩ := (sealResponseAtGateway_isOk_iff works.correct opened
    (Block.replicate 12 0) _).mpr (short.trans_eq (congrArg _ sameClass.symm))
  have shallow : (GatewayEnvelopePayload.ok ⟨random.requestId, agent.model, output,
      agent.tokenClass, none⟩).toJson.depth ≤ maxDepth := by
    rw [show maxDepth = maxDepth - 2 + 2 from rfl, depth_ok_le_iff]
    simp
  refine ⟨.response 200 answer.toVec, ?_⟩
  rw [receive_of_seal works requested responded, readPayload_toVec works.faithful
    (numbers_ok (by simp)), if_pos shallow]
  simp only [asRead, conclude, sameId, ne_eq, not_true_eq_false, if_false]

/-- An error of the gateway is one constant text for the client. -/
theorem receive_of_gatewayError :
    agent.receiveResponse (replyLibrary codec displayStatus fromUtf8Lossy) link.state posted order
        (.response Relay.RelayError.gatewayError.intoResponse.status
          Relay.RelayError.gatewayError.intoResponse.body) =
      .error (.http (displayStatus 502) (fromUtf8Lossy (utf8 (text "gateway error")))) :=
  rfl

/-- The numbers of what the gateway reads of the provider are read as themselves. -/
theorem numbers_of_answers (works : link.Works codec) {received : InferenceRequest}
    {response : Gateway.ProviderChatCompletionResult}
    {event : Program.Event Gateway.Call Gateway.Answer}
    (answers : Gateway.Answers link.state received response event) :
    Json.Numbers codec.readNumber response.body := by
  obtain ⟨answer, _, read⟩ := answers
  cases answer with
  | sendFailed => contradiction
  | readFailed status => contradiction
  | response status bytes =>
      simp only [Gateway.readProviderAnswer] at read
      split at read
      next =>
        split at read
        next => contradiction
        next body isBody =>
          cases read
          exact works.readsJson bytes body isBody
      next => contradiction

theorem coarsen_replyOf_ok (answer : Envelope) :
    Relay.coarsen (Gateway.replyOf (.ok answer)) = ⟨200, answer.toVec⟩ :=
  rfl

/-- What the outcome at the gateway is for the client. -/
theorem concludes_of_outcome (works : link.Works codec) {random : SendRandomness}
    {tokenClass : TokenClass} {requestId : Uuid} {requestJson plaintext : Bytes}
    (requested : sealRequestForGateway link.state.primitives link.state.aead random.ephSecret
      random.clientNonce random.nonce (link.state.keypair.publicBytes link.state.primitives)
      tokenClass requestId requestJson = .ok (posted.envelope, posted.context))
    (opened : openRequestAtGateway link.state.primitives link.state.aead link.state.keypair
      posted.envelope = .ok plaintext)
    {received : InferenceRequest} (sameId : received.requestId = posted.request.requestId)
    {events : List (Program.Event Gateway.Call Gateway.Answer)} {outcome : InferOutcome}
    (runs : Program.Runs (Gateway.inferResult link.state posted.envelope received) events outcome)
    (nonce : Block 12) {reply : Gateway.HttpReply}
    (isReply : reply = Relay.coarsen (Gateway.replyOf
      (Gateway.sealedResult link.state posted.envelope received nonce outcome))) :
    Concludes (replyLibrary codec displayStatus fromUtf8Lossy) agent order link.state
      posted.envelope received events
      (agent.receiveResponse (replyLibrary codec displayStatus fromUtf8Lossy) link.state posted
        order (.response reply.status reply.body)) := by
  have charged_iff : ∀ response, outcome = .ok response ↔
      Charged link.state received events response :=
    fun response => Gateway.outcome_eq_ok_iff_charged runs
  cases outcome with
  | error error =>
      have short := (Gateway.short_inferResult link.state posted.envelope received).runs runs
      have fits : (Gateway.resultPayload received (.error error)).toVec.length ≤
          posted.envelope.tokenClass.envelopeResponsePlaintextBytes :=
        Gateway.length_toVec_error_le short posted.envelope.tokenClass
      obtain ⟨answer, isSealed⟩ :=
        (sealResponseAtGateway_isOk_iff works.correct opened nonce _).mpr fits
      rw [Gateway.sealedResult_eq_ok_iff.mpr isSealed, coarsen_replyOf_ok] at isReply
      rw [isReply, receive_of_seal works requested isSealed, Gateway.resultPayload,
        readPayload_toVec works.faithful (numbers_err _ _), if_pos (depth_err _)]
      have noMismatch : ¬∃ responseRequestId ∈ some received.requestId,
          responseRequestId ≠ posted.request.requestId := by
        rintro ⟨_, ⟨⟩, mismatch⟩
        exact mismatch sameId
      simp only [asRead, conclude, if_neg noMismatch]
      exact .refused error runs fun response charged => by
        rw [← charged_iff] at charged
        contradiction
  | ok response =>
      have charged := (charged_iff response).mp rfl
      obtain ⟨event, _, answers⟩ := charged.answers
      have length : (Gateway.resultPayload received (.ok response)).toVec.length =
          Gateway.okPayloadBytes received response.body :=
        Gateway.length_resultPayload (Gateway.output_of_answers answers)
      by_cases short : Gateway.okPayloadBytes received response.body ≤
          posted.envelope.tokenClass.envelopeResponsePlaintextBytes
      · obtain ⟨answer, isSealed⟩ :=
          (sealResponseAtGateway_isOk_iff works.correct opened nonce _).mpr (length.trans_le short)
        rw [Gateway.sealedResult_eq_ok_iff.mpr isSealed, coarsen_replyOf_ok] at isReply
        rw [isReply, receive_of_seal works requested isSealed]
        have numbers : Json.Numbers codec.readNumber
            (Gateway.resultPayload received (.ok response)).toJson :=
          numbers_ok (by simpa using numbers_of_answers works answers)
        have within_iff : (Gateway.resultPayload received (.ok response)).toJson.depth ≤ maxDepth ↔
            response.body.depth ≤ maxDepth - 2 := by
          rw [Gateway.resultPayload, show maxDepth = maxDepth - 2 + 2 from rfl, depth_ok_le_iff]
          simp
        rw [readPayload_toVec works.faithful numbers]
        by_cases shallow : response.body.depth ≤ maxDepth - 2
        · rw [if_pos (within_iff.mpr shallow)]
          simp only [Gateway.resultPayload, asRead, conclude, sameId, ne_eq, not_true_eq_false,
            if_false]
          exact .delivered response charged short shallow
        · rw [if_neg (mt within_iff.mp shallow)]
          exact .tooDeep response charged short shallow
      · rw [Gateway.sealedResult, Gateway.sealResponseAtGateway_of_tooLong opened
          (length ▸ Nat.lt_of_not_le short)] at isReply
        have isError : reply = Relay.RelayError.gatewayError.intoResponse := isReply
        rw [isError, receive_of_gatewayError]
        exact .tooLong response charged (Nat.lt_of_not_le short)

theorem length_toVec_of_sealRequest (works : link.Works codec) {random : SendRandomness}
    {gatewayPublicBytes : Block 32} {tokenClass : TokenClass} {requestId : Uuid}
    {requestJson : Bytes}
    (requested : sealRequestForGateway link.state.primitives link.state.aead random.ephSecret
      random.clientNonce random.nonce gatewayPublicBytes tokenClass requestId requestJson =
        .ok (posted.envelope, posted.context)) :
    posted.envelope.toVec.length = envelopeLen tokenClass .request := by
  obtain ⟨isContext, carries, isSealed⟩ := sealRequestForGateway_eq_ok_iff.mp requested
  rw [isContext] at carries isSealed
  exact isSealed.length_toVec works.tagged carries

/-- An envelope of a client is short enough for every server. -/
theorem length_toVec_of_seal (works : link.Works codec) {random : SendRandomness}
    {gatewayPublicBytes : Block 32} {tokenClass : TokenClass} {requestId : Uuid}
    {requestJson : Bytes}
    (requested : sealRequestForGateway link.state.primitives link.state.aead random.ephSecret
      random.clientNonce random.nonce gatewayPublicBytes tokenClass requestId requestJson =
        .ok (posted.envelope, posted.context)) :
    posted.envelope.toVec.length ≤ Gateway.bodyLimit := by
  rw [length_toVec_of_sealRequest works requested]
  cases tokenClass <;> decide

/-- A reply to a post is what the outcome of the handler is sealed to. -/
theorem exists_of_replies (works : link.Works codec)
    (short : posted.envelope.toVec.length ≤ Gateway.bodyLimit) {plaintext : Bytes}
    (opened : openRequestAtGateway link.state.primitives link.state.aead link.state.keypair
      posted.envelope = .ok plaintext)
    {received : InferenceRequest}
    (isRequest : link.state.library.readRequest plaintext = .ok received)
    {events : List (Program.Event Gateway.Call Gateway.Answer)} {answer : HttpAnswer}
    (replies : link.Replies posted .arrives events answer) :
    ∃ first outcome nonce, events = first ++ [⟨.fillNonce, nonce⟩] ∧
      Program.Runs (Gateway.inferResult link.state posted.envelope received) first outcome ∧
      ∃ reply, answer = .response reply.status reply.body ∧ reply = Relay.coarsen (Gateway.replyOf
        (Gateway.sealedResult link.state posted.envelope received nonce outcome)) := by
  obtain ⟨reply, runs, rfl⟩ := replies
  have atRelay : link.relay.codec.Faithful := works.relayCodec ▸ works.faithful
  have atGateway : link.gateway.codec.Faithful := works.gatewayCodec ▸ works.faithful
  rw [Relay.relayed_of_extract atRelay (Server.extract_toVec atRelay short)
    (Server.extract_toVec atGateway short)] at runs
  obtain ⟨before, last, result, rfl, handled, finished⟩ := Program.runs_bind_iff.mp runs
  obtain ⟨rfl, isReply⟩ := Program.runs_done_iff.mp finished
  rw [Gateway.infer, opened] at handled
  simp only [isRequest] at handled
  obtain ⟨first, outcome, nonce, rfl, runsFirst, rfl⟩ :=
    Gateway.runs_inferCanonical_iff.mp handled
  exact ⟨first, outcome, nonce, List.append_nil _, runsFirst, reply, rfl, isReply⟩

/-- The gateway opens what an agent has sealed for it, and reads its request. -/
structure Receives (link : Link) (codec : Codec) (agent : AgentRuntime)
    (random : SendRandomness) (posted : Posted) (received : InferenceRequest) : Prop where
  requested : sealRequestForGateway link.state.primitives link.state.aead random.ephSecret
    random.clientNonce random.nonce (link.state.keypair.publicBytes link.state.primitives)
    agent.tokenClass random.requestId (utf8 posted.request.toJson.render) =
      .ok (posted.envelope, posted.context)
  opened : openRequestAtGateway link.state.primitives link.state.aead link.state.keypair
    posted.envelope = .ok (utf8 posted.request.toJson.render)
  isRequest : link.state.library.readRequest (utf8 posted.request.toJson.render) = .ok received
  reads : ReadsRequest codec.parse codec (utf8 posted.request.toJson.render) received
  sameId : received.requestId = posted.request.requestId

theorem exists_receives (works : link.Works codec) {engine : Engine} {draws : Nat → Fin 12}
    {prompt : PromptSource} {redactor : Redactor} {remoteMessages : List ChatMessage}
    (built : BuildsRemoteMessages engine draws prompt redactor remoteMessages)
    (isKey : agent.gatewayPublicBytes = link.state.keypair.publicBytes link.state.primitives)
    {random : SendRandomness} {source after : FileTicketSource} {write : FileWrite}
    (posts : agent.postRequest link.state random remoteMessages source write =
      (.ok posted, after)) :
    ∃ received, Receives link codec agent random posted received := by
  obtain ⟨⟨ticket, isPosted⟩, requested⟩ := sealed_of_postRequest posts
  obtain ⟨proper, back, numbers, within⟩ :=
    reads_requestFor works.faithful agent random built.bare ticket isPosted
  have decoded := InferenceRequest.ofJson_toJson proper back
  have reads : ReadsRequest codec.parse codec (utf8 posted.request.toJson.render)
      posted.request.canonical :=
    (readsRequest_iff numbers).mpr ⟨within, _, decoded, .refl _⟩
  obtain ⟨received, isRequest, readsReceived⟩ := works.readsRequest _ _ reads
  rw [isKey] at requested
  have opened := openRequestAtGateway_of_seal works.correct requested
  rw [trimZeroPadding_render (Json.tokens_of_numbers numbers)] at opened
  refine ⟨received, requested, opened, isRequest, readsReceived, ?_⟩
  obtain ⟨_, first, isFirst, reordered⟩ := (readsRequest_iff numbers).mp readsReceived
  rw [decoded, Option.some.injEq] at isFirst
  subst isFirst
  exact reordered.requestId.symm

/-- The client is left with the relay's own error, whatever the gateway has done. -/
theorem receive_of_lost (works : link.Works codec)
    (short : posted.envelope.toVec.length ≤ Gateway.bodyLimit) {loss : Relay.Loss} {calls : Nat}
    {events : List (Program.Event Gateway.Call Gateway.Answer)} {answer : HttpAnswer}
    (replies : link.Replies posted (.lost loss calls) events answer) :
    answer = .response loss.relayError.intoResponse.status loss.relayError.intoResponse.body := by
  obtain ⟨reply, runs, rfl⟩ := replies
  have atRelay : link.relay.codec.Faithful := works.relayCodec ▸ works.faithful
  rw [Relay.relayed_of_lost loss calls (Server.extract_toVec atRelay short)] at runs
  obtain ⟨_, _, _, _, _, finished⟩ := Program.runs_bind_iff.mp runs
  obtain ⟨_, rfl⟩ := Program.runs_done_iff.mp finished
  rfl

/-- **How an exchange ends**: the gateway reads the request that was posted, and whatever it
calls and is answered, the client is left with what follows from whether the ticket was
charged and how long and how deep the provider's answer is; unless the reply is lost to the
relay, which leaves it with an error of the relay in any case. -/
theorem exchange_concludes (works : link.Works codec) {engine : Engine} {draws : Nat → Fin 12}
    {prompt : PromptSource} {redactor : Redactor} {remoteMessages : List ChatMessage}
    (built : BuildsRemoteMessages engine draws prompt redactor remoteMessages)
    (isKey : agent.gatewayPublicBytes = link.state.keypair.publicBytes link.state.primitives)
    {random : SendRandomness} {source after : FileTicketSource} {write : FileWrite}
    (posts : agent.postRequest link.state random remoteMessages source write =
      (.ok posted, after)) :
    ∃ received, ReadsRequest codec.parse codec (utf8 posted.request.toJson.render) received ∧
      (∀ events answer, link.Replies posted .arrives events answer →
        ∃ first nonce, events = first ++ [⟨.fillNonce, nonce⟩] ∧
          ∀ order, Concludes (replyLibrary codec displayStatus fromUtf8Lossy) agent order
            link.state posted.envelope received first
            (agent.receiveResponse (replyLibrary codec displayStatus fromUtf8Lossy) link.state
              posted order answer)) ∧
      ∀ loss calls events answer, link.Replies posted (.lost loss calls) events answer →
        ∀ order, agent.receiveResponse (replyLibrary codec displayStatus fromUtf8Lossy) link.state
          posted order answer =
            .error (lostError (replyLibrary codec displayStatus fromUtf8Lossy) loss) := by
  obtain ⟨received, receives⟩ := exists_receives works built isKey posts
  have short := length_toVec_of_seal works receives.requested
  refine ⟨received, receives.reads, fun events answer replies => ?_,
    fun loss calls events answer replies order => ?_⟩
  · obtain ⟨first, outcome, nonce, isEvents, runs, reply, rfl, isReply⟩ :=
      exists_of_replies works short receives.opened receives.isRequest replies
    exact ⟨first, nonce, isEvents, fun order =>
      concludes_of_outcome works receives.requested receives.opened receives.sameId runs nonce
        isReply⟩
  · rw [receive_of_lost works short replies]
    cases loss <;> rfl

end Replying

/-! ## A greeting -/

/-- A gateway that reads with the standard codec, behind a relay that does so too. -/
def standardLink : Link where
  relay := Relay.plainServer 422
  gateway := Relay.plainServer 422
  gatewayUrl := text "http://gateway:8080/v1/infer"
  state := {
    library := {
      sha256 := id
      shake256 := fun _ => Block.replicate 48 0
      readJson := Codec.standard.parse
      readRequest := fun bytes =>
        match (Codec.standard.parse bytes).bind (InferenceRequest.ofJson .standard) with
        | none => .error []
        | some request => .ok request }
    primitives := .transparent
    aead := .tagged _
    keypair := ⟨Block.replicate 32 1⟩
    providerBaseUrl := text "http://localhost:8000"
    providerApiKey := none
    nullifierPendingTtlMs := 10 }

theorem works_standardLink : standardLink.Works .standard where
  faithful := Codec.faithful_standard
  relayCodec := rfl
  gatewayCodec := rfl
  correct := correct_tagged
  tagged := tagged_tagged _
  readsJson := fun _ _ read => Json.numbers_of_parse Codec.faithful_standard.settled read
  readsRequest := by
    rintro bytes received ⟨document, isDocument, first, isFirst, _⟩
    have isRead : (Codec.standard.parse bytes).bind (InferenceRequest.ofJson .standard) =
        some first := by
      rw [isDocument, Option.bind_some]
      exact isFirst
    refine ⟨first, ?_, document, isDocument, first, isFirst, .refl _⟩
    simp only [standardLink, isRead]

def plainGreeting : PromptSource :=
  greeting { PromptBuildConfig.default with padSystemPrompt := false }

def greetingMessages : List ChatMessage :=
  (plainGreeting.assembled (.ofTable []) freshRedactor).1

theorem builds_greetingMessages :
    BuildsRemoteMessages (.ofTable []) (fun _ => 0) plainGreeting freshRedactor greetingMessages :=
  ⟨greetingMessages, enforcesBudget_of_le (by decide +kernel), rfl⟩

def soleSource : FileTicketSource :=
  ⟨some [ClientState.soleTicket], [ClientState.soleTicket]⟩

theorem exists_posted_of_short {agent : AgentRuntime} {remoteMessages : List ChatMessage}
    (isKey : agent.gatewayPublicBytes = Block.replicate 32 1) (isSmall : agent.tokenClass = .c256)
    (short : (utf8 (InferenceRequest.toJson
      { agent.requestFor ClientState.plainCall.random.requestId remoteMessages with
        ticket := ClientState.soleTicket }).render).length ≤
      TokenClass.c256.envelopeRequestPlaintextBytes) : ∃ posted after,
    agent.postRequest standardLink.state ClientState.plainCall.random remoteMessages soleSource
      .written = (.ok posted, after) := by
  have correct : Correct standardLink.state.primitives standardLink.state.aead := correct_tagged
  have contributory : Contributory (standardLink.state.primitives.diffieHellman
      ClientState.plainCall.random.ephSecret agent.gatewayPublicBytes) := by
    rw [isKey]
    rfl
  obtain ⟨⟨env, context⟩, isSealed⟩ := (sealRequestForGateway_isOk_iff correct contributory
    ClientState.plainCall.random.clientNonce ClientState.plainCall.random.nonce
    ClientState.plainCall.random.requestId _).mpr short
  have taken : soleSource.take agent.tokenClass = some (ClientState.soleTicket, []) := by
    rw [isSmall]
    rfl
  exact ⟨_, _, postRequest_of_seal taken rfl (isSmall ▸ isSealed) .written⟩

theorem exists_posted_greeting : ∃ posted after,
    ClientState.plainAgent.postRequest standardLink.state ClientState.plainCall.random
      greetingMessages soleSource .written = (.ok posted, after) :=
  exists_posted_of_short rfl rfl (by decide +kernel)

theorem exchange_concludes_greeting : ∃ posted after,
    ClientState.plainAgent.postRequest standardLink.state ClientState.plainCall.random
      greetingMessages soleSource .written = (.ok posted, after) ∧
    ∃ received, ReadsRequest Codec.standard.parse .standard (utf8 posted.request.toJson.render)
        received ∧
      (∀ events answer, standardLink.Replies posted .arrives events answer →
        ∃ first nonce, events = first ++ [⟨.fillNonce, nonce⟩] ∧
          ∀ order, Concludes (replyLibrary .standard decimal fun _ => []) ClientState.plainAgent
            order standardLink.state posted.envelope received first
            (ClientState.plainAgent.receiveResponse (replyLibrary .standard decimal fun _ => [])
              standardLink.state posted order answer)) ∧
      ∀ loss calls events answer, standardLink.Replies posted (.lost loss calls) events answer →
        ∀ order, ClientState.plainAgent.receiveResponse
          (replyLibrary .standard decimal fun _ => []) standardLink.state posted order answer =
            .error (lostError (replyLibrary .standard decimal fun _ => []) loss) := by
  obtain ⟨posted, after, posts⟩ := exists_posted_greeting
  exact ⟨posted, after, posts,
    exchange_concludes works_standardLink builds_greetingMessages rfl posts⟩

end ZkLlmGateway.Client
