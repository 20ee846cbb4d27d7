import ZkLlmGateway.Client.Exchange

/-!
# What the wire shows of an exchange

Whoever sees the post of a client and the reply of the relay, but neither key, sees two
lengths and a status.  They are those of the token class, whatever is asked and answered
and wherever it fails behind the relay.  Only a paid answer that is too long for its class
shows, and a reply that is lost to the relay.
-/

namespace ZkLlmGateway.Client

open ZkLlmGateway.Encoding ZkLlmGateway.Common ZkLlmGateway.Interaction
open ZkLlmGateway.Gateway (HttpAnswer InferOutcome Charged)

/-! ## Traffic -/

/-- The length of a post, and the status and the length of its reply. -/
structure Traffic where
  posted : Nat
  status : Nat
  replied : Nat
  deriving DecidableEq

/-- The traffic of a reply that has arrived. -/
def trafficOf (posted : Posted) : HttpAnswer → Option Traffic
  | .response status body => some ⟨posted.envelope.toVec.length, status, body.length⟩
  | _ => none

/-- What an exchange ends with: an envelope, or one of the errors of the relay. -/
inductive Ending
  | sealed
  | tooLong
  | timeout
  | unreachable
  deriving DecidableEq

def Ending.traffic (tokenClass : TokenClass) : Ending → Traffic
  | sealed => ⟨envelopeLen tokenClass .request, 200, envelopeLen tokenClass .response⟩
  | tooLong => ⟨envelopeLen tokenClass .request, 502, 13⟩
  | timeout => ⟨envelopeLen tokenClass .request, 504, 15⟩
  | unreachable => ⟨envelopeLen tokenClass .request, 502, 19⟩

/-- A prompt that an agent has posted through the relay, and a complete run behind it. -/
structure Exchanged (link : Link) (tokenClass : TokenClass) (posted : Posted) (fate : Relay.Fate)
    (events : List (Program.Event Gateway.Call Gateway.Answer)) (answer : HttpAnswer) : Prop where
  posts : ∃ (engine : Engine) (draws : Nat → Fin 12) (prompt : PromptSource) (redactor : Redactor)
    (remoteMessages : List ChatMessage) (agent : AgentRuntime) (random : SendRandomness)
    (source after : FileTicketSource) (write : FileWrite),
    BuildsRemoteMessages engine draws prompt redactor remoteMessages ∧
    agent.tokenClass = tokenClass ∧
    agent.gatewayPublicBytes = link.state.keypair.publicBytes link.state.primitives ∧
    agent.postRequest link.state random remoteMessages source write = (.ok posted, after)
  replies : link.Replies posted fate events answer

/-- The ticket was charged for an answer that is too long for the class. -/
def Oversized (link : Link) (posted : Posted)
    (events : List (Program.Event Gateway.Call Gateway.Answer)) : Prop :=
  ∃ received response,
    link.state.library.readRequest (utf8 posted.request.toJson.render) = .ok received ∧
    Charged link.state received events response ∧
    posted.envelope.tokenClass.envelopeResponsePlaintextBytes <
      Gateway.okPayloadBytes received response.body

/-- How an exchange ends: by the fate of the forwarded request and, if the reply arrives, by
what the gateway has done. -/
inductive Ends (link : Link) (posted : Posted) :
    Relay.Fate → List (Program.Event Gateway.Call Gateway.Answer) → Ending → Prop
  | sealed {events} (short : ¬Oversized link posted events) :
      Ends link posted .arrives events .sealed
  | tooLong {events} (long : Oversized link posted events) :
      Ends link posted .arrives events .tooLong
  | timeout {calls events} : Ends link posted (.lost .timeout calls) events .timeout
  | sendFailed {calls events} : Ends link posted (.lost .sendFailed calls) events .unreachable
  | readFailed {status calls events} :
      Ends link posted (.lost (.readFailed status) calls) events .unreachable

/-- Every exchange ends. -/
theorem exists_ends (link : Link) (posted : Posted) (fate : Relay.Fate)
    (events : List (Program.Event Gateway.Call Gateway.Answer)) :
    ∃ ending, Ends link posted fate events ending := by
  rcases fate with _ | ⟨_ | _ | status, calls⟩
  · by_cases long : Oversized link posted events
    · exact ⟨.tooLong, .tooLong long⟩
    · exact ⟨.sealed, .sealed long⟩
  · exact ⟨.timeout, .timeout⟩
  · exact ⟨.unreachable, .sendFailed⟩
  · exact ⟨.unreachable, .readFailed⟩

section Traffic

variable {codec : Codec} {link : Link} {tokenClass : TokenClass} {posted : Posted}
  {fate : Relay.Fate} {events : List (Program.Event Gateway.Call Gateway.Answer)}
  {answer : HttpAnswer}

/-- The payload is too long exactly when the ticket was charged for such an answer. -/
theorem oversized_iff {received : InferenceRequest} {outcome : InferOutcome}
    (isRequest : link.state.library.readRequest (utf8 posted.request.toJson.render) =
      .ok received)
    (runs : Program.Runs (Gateway.inferResult link.state posted.envelope received) events outcome)
    (nonce : Block 12) :
    Oversized link posted (events ++ [⟨.fillNonce, nonce⟩]) ↔
      posted.envelope.tokenClass.envelopeResponsePlaintextBytes <
        (Gateway.resultPayload received outcome).toVec.length := by
  have unfolded : Oversized link posted (events ++ [⟨.fillNonce, nonce⟩]) ↔
      ∃ response, outcome = .ok response ∧
        posted.envelope.tokenClass.envelopeResponsePlaintextBytes <
          Gateway.okPayloadBytes received response.body := by
    simp only [Oversized, isRequest, Except.ok.injEq, exists_and_left, exists_eq_left',
      Gateway.charged_concat_iff, Gateway.outcome_eq_ok_iff_charged runs]
  rw [unfolded]
  cases outcome with
  | error error =>
      have short := (Gateway.short_inferResult link.state posted.envelope received).runs runs
      constructor
      · rintro ⟨_, ⟨⟩, _⟩
      · intro long
        exact absurd (Gateway.length_toVec_error_le short _) (Nat.not_le_of_lt long)
  | ok response =>
      rcases ((Gateway.outcome_eq_ok_iff_charged runs).mp rfl).answers with ⟨event, _, answers⟩
      have length : (Gateway.resultPayload received (.ok response)).toVec.length =
          Gateway.okPayloadBytes received response.body :=
        Gateway.length_resultPayload (Gateway.output_of_answers answers)
      rw [length]
      constructor
      · rintro ⟨_, ⟨⟩, long⟩
        exact long
      · intro long
        exact ⟨response, rfl, long⟩

/-- A sealed response has the length of its class. -/
theorem length_toVec_of_sealResponse (works : link.Works codec) {nonce : Block 12}
    {payloadJson : Bytes} {env answer : Envelope}
    (responded : sealResponseAtGateway link.state.primitives link.state.aead nonce
      link.state.keypair env payloadJson = .ok answer) :
    answer.toVec.length = envelopeLen env.tokenClass .response := by
  rcases sealResponseAtGateway_eq_ok_iff.mp responded with
    ⟨transcript, carries, answerCarries, _, isSealed⟩
  rw [carries.tokenClass] at isSealed
  rw [carries.tokenClass]
  exact isSealed.length_toVec works.tagged answerCarries

theorem tokenClass_of_sealRequest {primitives : Primitives} {aead : Aead primitives.Key}
    {ephSecret clientNonce gatewayPublicBytes : Block 32} {nonce : Block 12} {requestId : Uuid}
    {requestJson : Bytes} {env : Envelope} {context : ClientCryptoContext}
    (requested : sealRequestForGateway primitives aead ephSecret clientNonce nonce
      gatewayPublicBytes tokenClass requestId requestJson = .ok (env, context)) :
    env.tokenClass = tokenClass := by
  rcases sealRequestForGateway_eq_ok_iff.mp requested with ⟨isContext, carries, _⟩
  rw [isContext] at carries
  exact carries.tokenClass

/-- The traffic of a reply that arrives at the relay. -/
theorem Exchanged.traffic_of_arrives (works : link.Works codec)
    (exchanged : Exchanged link tokenClass posted .arrives events answer) :
    (Oversized link posted events →
        trafficOf posted answer = some (Ending.tooLong.traffic tokenClass)) ∧
      (¬Oversized link posted events →
        trafficOf posted answer = some (Ending.sealed.traffic tokenClass)) := by
  rcases exchanged.posts with ⟨_, _, _, _, _, agent, _, _, _, _, built, rfl, isKey, posts⟩
  rcases exists_receives works built isKey posts with ⟨received, receives⟩
  have posted := length_toVec_of_sealRequest works receives.requested
  have sameClass := tokenClass_of_sealRequest receives.requested
  rcases exists_of_replies works (length_toVec_of_seal works receives.requested) receives.opened
    receives.isRequest exchanged.replies with
    ⟨first, outcome, nonce, rfl, runs, reply, rfl, isReply⟩
  rw [oversized_iff receives.isRequest runs]
  constructor
  · intro long
    rw [Gateway.sealedResult, Gateway.sealResponseAtGateway_of_tooLong receives.opened long]
      at isReply
    have failed : reply = Relay.RelayError.gatewayError.intoResponse := isReply
    rw [failed, trafficOf, posted]
    rfl
  · intro short
    obtain ⟨answer, isSealed⟩ := (sealResponseAtGateway_isOk_iff works.correct receives.opened
      nonce _).mpr (Nat.le_of_not_lt short)
    rw [Gateway.sealedResult_eq_ok_iff.mpr isSealed, coarsen_replyOf_ok] at isReply
    rw [isReply, trafficOf, posted, length_toVec_of_sealResponse works isSealed, sameClass]
    rfl

/-- The traffic of a reply that is lost to the relay. -/
theorem Exchanged.traffic_of_lost (works : link.Works codec) {loss : Relay.Loss} {calls : Nat}
    (exchanged : Exchanged link tokenClass posted (.lost loss calls) events answer) :
    trafficOf posted answer = some ⟨envelopeLen tokenClass .request, loss.relayError.status,
      (utf8 loss.relayError.message).length⟩ := by
  rcases exchanged.posts with ⟨_, _, _, _, _, agent, _, _, _, _, built, rfl, isKey, posts⟩
  rcases exists_receives works built isKey posts with ⟨received, receives⟩
  have posted := length_toVec_of_sealRequest works receives.requested
  rw [receive_of_lost works (length_toVec_of_seal works receives.requested) exchanged.replies,
    trafficOf, posted]
  rfl

/-- What an exchange ends with is its traffic. -/
theorem Exchanged.traffic (works : link.Works codec) {ending : Ending}
    (exchanged : Exchanged link tokenClass posted fate events answer)
    (ends : Ends link posted fate events ending) :
    trafficOf posted answer = some (ending.traffic tokenClass) := by
  cases ends with
  | sealed short => exact (exchanged.traffic_of_arrives works).2 short
  | tooLong long => exact (exchanged.traffic_of_arrives works).1 long
  | timeout => exact exchanged.traffic_of_lost works
  | sendFailed => exact exchanged.traffic_of_lost works
  | readFailed => exact exchanged.traffic_of_lost works

theorem Ending.traffic_injective (tokenClass : TokenClass) :
    Function.Injective (Ending.traffic tokenClass) := by
  intro left right same
  cases left <;> cases right <;> simp [traffic] at same ⊢

/-- **The wire shows no more than a token class and an ending**: two exchanges of one class look
alike exactly when they end alike. -/
theorem sameTraffic_iff (works : link.Works codec) {otherPosted : Posted} {otherFate : Relay.Fate}
    {otherEvents : List (Program.Event Gateway.Call Gateway.Answer)} {otherAnswer : HttpAnswer}
    (exchanged : Exchanged link tokenClass posted fate events answer)
    (other : Exchanged link tokenClass otherPosted otherFate otherEvents otherAnswer) :
    ∃ ending otherEnding, Ends link posted fate events ending ∧
      Ends link otherPosted otherFate otherEvents otherEnding ∧
      trafficOf posted answer = some (ending.traffic tokenClass) ∧
      trafficOf otherPosted otherAnswer = some (otherEnding.traffic tokenClass) ∧
      (trafficOf posted answer = trafficOf otherPosted otherAnswer ↔ ending = otherEnding) := by
  rcases exists_ends link posted fate events with ⟨ending, ends⟩
  rcases exists_ends link otherPosted otherFate otherEvents with ⟨otherEnding, otherEnds⟩
  have shown := exchanged.traffic works ends
  have otherShown := other.traffic works otherEnds
  refine ⟨ending, otherEnding, ends, otherEnds, shown, otherShown, ?_⟩
  rw [shown, otherShown, Option.some.injEq]
  exact (Ending.traffic_injective tokenClass).eq_iff

end Traffic

/-! ## Two greetings -/

/-- A program comes to its end, whatever it is answered. -/
theorem exists_runs {Call : Type} {Answer : Call → Type} {α : Type}
    (answers : (query : Call) → Answer query) (program : Program Call Answer α) :
    ∃ events result, Program.Runs program events result ∧
      ∀ event ∈ events, event.answer = answers event.query := by
  induction program with
  | done value => exact ⟨[], value, .done value, by rintro _ ⟨⟩⟩
  | call query resume inductionHypothesis =>
      rcases inductionHypothesis (answers query) with ⟨events, result, runs, given⟩
      refine ⟨⟨query, answers query⟩ :: events, result, .call _ runs, ?_⟩
      intro event member
      rcases List.mem_cons.mp member with rfl | later
      · rfl
      · exact given event later

/-- A verifier that has this problem, and nothing else that works. -/
def unverified (problem : Gateway.ZkVerifyError) : (query : Gateway.Call) → Gateway.Answer query
  | .verify _ _ => .error problem
  | .now => 0
  | .compareAndSwap _ _ _ => .error .failed
  | .get _ => .error .failed
  | .flush => .error .failed
  | .post _ _ _ => .sendFailed
  | .fillNonce => Block.replicate 12 0

/-- A greeting with an invalid ticket looks like one that could not be verified. -/
theorem sameTraffic_unverified : ∃ posted events otherEvents answer otherAnswer,
    Exchanged standardLink .c256 posted .arrives events answer ∧
    Exchanged standardLink .c256 posted .arrives otherEvents otherAnswer ∧
    (∀ event ∈ events, event.answer = unverified .invalidProof event.query) ∧
    (∀ event ∈ otherEvents, event.answer = unverified (.internal []) event.query) ∧
    ∃ ending otherEnding, Ends standardLink posted .arrives events ending ∧
      Ends standardLink posted .arrives otherEvents otherEnding ∧
      trafficOf posted answer = some (ending.traffic .c256) ∧
      trafficOf posted otherAnswer = some (otherEnding.traffic .c256) ∧
      (trafficOf posted answer = trafficOf posted otherAnswer ↔ ending = otherEnding) := by
  rcases exists_posted_greeting with ⟨posted, after, posts⟩
  rcases exists_runs (unverified .invalidProof) (Relay.relayed standardLink.relay
    standardLink.gateway standardLink.state .arrives standardLink.gatewayUrl
    posted.envelope.toVec) with ⟨events, reply, runs, given⟩
  rcases exists_runs (unverified (.internal [])) (Relay.relayed standardLink.relay
    standardLink.gateway standardLink.state .arrives standardLink.gatewayUrl
    posted.envelope.toVec) with ⟨otherEvents, otherReply, otherRuns, otherGiven⟩
  have greets : ∃ (engine : Engine) (draws : Nat → Fin 12) (prompt : PromptSource)
      (redactor : Redactor) (remoteMessages : List ChatMessage) (agent : AgentRuntime)
      (random : SendRandomness) (source after : FileTicketSource) (write : FileWrite),
      BuildsRemoteMessages engine draws prompt redactor remoteMessages ∧
      agent.tokenClass = .c256 ∧ agent.gatewayPublicBytes =
        standardLink.state.keypair.publicBytes standardLink.state.primitives ∧
      agent.postRequest standardLink.state random remoteMessages source write =
        (.ok posted, after) :=
    ⟨_, _, _, _, _, _, _, _, _, _, builds_greetingMessages, rfl, rfl, posts⟩
  have exchanged : Exchanged standardLink .c256 posted .arrives events
      (.response reply.status reply.body) := ⟨greets, reply, runs, rfl⟩
  have other : Exchanged standardLink .c256 posted .arrives otherEvents
      (.response otherReply.status otherReply.body) := ⟨greets, otherReply, otherRuns, rfl⟩
  exact ⟨posted, events, otherEvents, _, _, exchanged, other, given, otherGiven,
    sameTraffic_iff works_standardLink exchanged other⟩

end ZkLlmGateway.Client
