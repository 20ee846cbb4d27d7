import ZkLlmGateway.Common.Sealing
import ZkLlmGateway.Gateway.Actum
import ZkLlmGateway.Gateway.Outcome

/-!
# What a relay sees of a reply

Of an encrypted reply a relay sees the clear header and the lengths of the
nonce and of the ciphertext; of an error that is returned in clear it sees
everything.  Such an error is a trouble, and replies to requests with the same
header differ for a relay exactly where their troubles do.
-/

namespace ZkLlmGateway.Gateway

open ZkLlmGateway.Encoding ZkLlmGateway.Common ZkLlmGateway.Interaction

/-! ## Observations -/

/-- A reply as the relay sees it. -/
inductive Observation
  | encrypted (version : UInt8) (tokenClass : TokenClass) (requestId : Uuid)
      (clientNonceB64 kemPubB64 : Text) (nonceB64Length ciphertextB64Length : Nat)
  | clear (status : Nat) (error : ErrorResponse)

def observeEnvelope (env : Envelope) : Observation :=
  .encrypted env.version env.tokenClass env.requestId env.clientNonceB64 env.kemPubB64
    env.nonceB64.length env.ciphertextB64.length

def observe : Except ApiError Envelope → Observation
  | .ok env => observeEnvelope env
  | .error (.badRequest error) => .clear 400 error
  | .error (.internal error) => .clear 500 error

/-- The same clear header, up to the nonce. -/
structure SameHeader (left right : Envelope) : Prop where
  version : left.version = right.version
  tokenClass : left.tokenClass = right.tokenClass
  requestId : left.requestId = right.requestId
  clientNonceB64 : left.clientNonceB64 = right.clientNonceB64
  kemPubB64 : left.kemPubB64 = right.kemPubB64

/-! ## Troubles -/

/-- The provider has answered a request with this response, the store has done all its
work, and the ticket is spent. -/
structure Charged (state : AppState) (req : InferenceRequest)
    (events : List (Program.Event Call Answer)) (response : ProviderChatCompletionResult) :
    Prop where
  works : ∀ event ∈ events, Works event
  marks : ∃ event ∈ events, Marks event
  answers : ∃ event ∈ events, Answers state req response event

/-- Why a reply is not encrypted. -/
inductive Trouble
  | unreadable (problem : Text)
  | oversized (requestId : Uuid) (payloadBytes : Nat)

/-- The decrypted bytes are no request, or the payload with the provider's answer is too long. -/
def HasTrouble (state : AppState) (env : Envelope) (plaintext : Bytes)
    (events : List (Program.Event Call Answer)) : Trouble → Prop
  | .unreadable problem => state.library.readRequest plaintext = .error problem
  | .oversized requestId payloadBytes => ∃ req response,
      state.library.readRequest plaintext = .ok req ∧ Charged state req events response ∧
        env.tokenClass.envelopeResponsePlaintextBytes < okPayloadBytes req response.body ∧
        requestId = req.requestId ∧ payloadBytes = okPayloadBytes req response.body

/-! ## Errors inside the envelope -/

/-- Short texts in every class. -/
def EncryptedError.Short (error : EncryptedError) : Prop :=
  byteLen (Json.renderString error.code) + byteLen (Json.renderString error.message) ≤ 1000

theorem short_mk (code message : Text)
    (short : byteLen (Json.renderString code) + byteLen (Json.renderString message) ≤ 1000) :
    EncryptedError.Short ⟨code, message⟩ :=
  short

theorem short_checkRequest {env : Envelope} {req : InferenceRequest} {error : EncryptedError}
    (failed : checkRequest env req = .error error) : error.Short := by
  unfold checkRequest at failed
  split at failed
  next =>
    cases failed
    exact short_mk _ _ (by decide)
  next =>
    split at failed
    next =>
      cases failed
      exact short_mk _ _ (by decide)
    next =>
      split at failed
      next =>
        cases failed
        exact short_mk _ _ (by decide)
      next =>
        split at failed
        next =>
          cases failed
          exact short_mk _ _ (by decide)
        next => contradiction

theorem short_serviceErrors : ∀ error ∈ serviceErrors, error.Short := by
  unfold EncryptedError.Short
  decide

theorem short_inferResult (state : AppState) (env : Envelope) (req : InferenceRequest) :
    (inferResult state env req).Returns (OnError EncryptedError.Short) :=
  onError_inferResult (fun _ => short_checkRequest) short_serviceErrors state

/-- The payload of an error fits every class. -/
theorem length_toVec_error_le {req : InferenceRequest} {error : EncryptedError}
    (short : error.Short) (tokenClass : TokenClass) :
    (resultPayload req (.error error)).toVec.length ≤
      tokenClass.envelopeResponsePlaintextBytes := by
  have smallest : 8192 ≤ tokenClass.envelopeResponsePlaintextBytes := by
    cases tokenClass <;> decide
  have idText : byteLen (Json.renderString (Uuid.toText req.requestId)) = 38 := by
    rw [(Uuid.plain_toText req.requestId).byteLen_renderString, Uuid.length_toText]
  have punctuation : '{'.utf8Size = 1 ∧ '}'.utf8Size = 1 ∧ ':'.utf8Size = 1 ∧
      ','.utf8Size = 1 := by decide
  have names : byteLen (Json.renderString (text "kind")) = 6 ∧
      byteLen (Json.renderString (text "err")) = 5 ∧
      byteLen (Json.renderString (text "error")) = 7 ∧
      byteLen (Json.renderString (text "request_id")) = 12 ∧
      byteLen (Json.renderString (text "code")) = 6 ∧
      byteLen (Json.renderString (text "message")) = 9 := by decide
  rw [EncryptedError.Short] at short
  simp only [resultPayload, GatewayEnvelopePayload.toVec, GatewayEnvelopePayload.toJson,
    ErrorResponse.toJson, optionJson, length_utf8, Json.render, Json.renderFields,
    Json.renderMoreFields, Json.renderField, byteLen_cons, byteLen_append, byteLen_nil, idText]
  omega

/-! ## Charged requests -/

section Charging

variable {state : AppState} {env : Envelope} {req : InferenceRequest}
  {events : List (Program.Event Call Answer)} {response : ProviderChatCompletionResult}

/-- The calls of a request that is answered by the provider. -/
theorem exists_of_runs_ok
    (runs : Program.Runs (inferResult state env req) events (.ok response)) :
    ∃ front answer spentNow rkey pendingVal,
      events = front ++ [⟨providerCall state req, answer⟩, ⟨.now, spentNow⟩,
        ⟨.compareAndSwap rkey (some pendingVal) (some (encodeNullifierValue spentStatus spentNow)),
          .ok true⟩, ⟨.flush, .ok ()⟩] ∧
      (∀ event ∈ front, Works event ∧ ¬IsPost event.query) ∧
      readProviderAnswer state.library req.requestId answer = .ok response := by
  unfold inferResult at runs
  split at runs
  next =>
    obtain ⟨_, failed⟩ := Program.runs_done_iff.mp runs
    contradiction
  next =>
    obtain ⟨answer, rest, rfl, afterVerify⟩ := Program.runs_call_iff.mp runs
    rcases answer with problem | verified
    · obtain ⟨_, failed⟩ := Program.runs_done_iff.mp afterVerify
      contradiction
    · obtain ⟨now, rest, rfl, afterNow⟩ := Program.runs_call_iff.mp afterVerify
      simp only [Program.bind_done] at afterNow
      obtain ⟨reservation, later, reserved, rfl, reserving, afterReserve⟩ :=
        Program.runs_bind_iff.mp afterNow
      rcases reserved with problem | _
      · obtain ⟨_, failed⟩ := Program.runs_done_iff.mp afterReserve
        contradiction
      · obtain ⟨answer, rest, rfl, afterPost⟩ := Program.runs_call_iff.mp afterReserve
        simp only [Program.bind_done] at afterPost
        split at afterPost
        next =>
          obtain ⟨_, _, _, _, _, finished⟩ := Program.runs_bind_iff.mp afterPost
          obtain ⟨_, failed⟩ := Program.runs_done_iff.mp finished
          contradiction
        next result read =>
          obtain ⟨spentNow, rest, rfl, afterStamp⟩ := Program.runs_call_iff.mp afterPost
          simp only [Program.bind_done] at afterStamp
          obtain ⟨marking, later, marked, rfl, marks, finished⟩ :=
            Program.runs_bind_iff.mp afterStamp
          rcases marked with problem | _
          · obtain ⟨_, failed⟩ := Program.runs_done_iff.mp finished
            contradiction
          · obtain ⟨rfl, same⟩ := Program.runs_done_iff.mp finished
            cases same
            obtain ⟨swapped, rest, rfl, afterSwap⟩ := Program.runs_call_iff.mp marks
            rcases swapped with problem | (_ | _)
            · obtain ⟨_, failed⟩ := Program.runs_done_iff.mp afterSwap
              contradiction
            · obtain ⟨_, failed⟩ := Program.runs_done_iff.mp afterSwap
              contradiction
            · obtain ⟨flushed, rest, rfl, afterFlush⟩ := Program.runs_call_iff.mp afterSwap
              rcases flushed with problem | _
              · obtain ⟨_, failed⟩ := Program.runs_done_iff.mp afterFlush
                contradiction
              · obtain ⟨rfl, _⟩ := Program.runs_done_iff.mp afterFlush
                refine ⟨⟨verifyCall state req, .ok verified⟩ :: ⟨.now, now⟩ :: reservation, answer,
                  spentNow, _, _, rfl, ?_, read⟩
                obtain ⟨front, old, works, rfl⟩ := reserves_of_runs reserving
                have stays := (only_reserve _ _ _).runs reserving
                intro event member
                rcases List.mem_cons.mp member with rfl | member
                · exact ⟨trivial, id⟩
                rcases List.mem_cons.mp member with rfl | member
                · exact ⟨trivial, id⟩
                refine ⟨?_, stays event member⟩
                rcases List.mem_append.mp member with inFront | atEnd
                · exact works event inFront
                · rcases List.mem_pair.mp atEnd with rfl | rfl <;> trivial

/-- The handler's outcome is a response exactly when the request is charged for it. -/
theorem outcome_eq_ok_iff_charged {outcome : InferOutcome}
    (runs : Program.Runs (inferResult state env req) events outcome) :
    outcome = .ok response ↔ Charged state req events response := by
  constructor
  · rintro rfl
    obtain ⟨front, answer, spentNow, rkey, pendingVal, rfl, works, read⟩ := exists_of_runs_ok runs
    refine ⟨?_, ⟨⟨.compareAndSwap rkey (some pendingVal)
      (some (encodeNullifierValue spentStatus spentNow)), .ok true⟩, by simp, spentNow, rfl⟩,
      ⟨⟨providerCall state req, answer⟩, by simp, answer, rfl, read⟩⟩
    intro event member
    rcases List.mem_append.mp member with inFront | atEnd
    · exact (works event inFront).1
    · simp only [List.mem_cons, List.not_mem_nil, or_false] at atEnd
      rcases atEnd with rfl | rfl | rfl | rfl <;> trivial
  · intro charged
    obtain ⟨_, result, rfl, _⟩ := outcome_of_marks runs charged.works charged.marks
    obtain ⟨front, answer, spentNow, rkey, pendingVal, rfl, works, read⟩ := exists_of_runs_ok runs
    obtain ⟨event, member, other, rfl, readOther⟩ := charged.answers
    have same : other = answer := by
      rcases List.mem_append.mp member with inFront | atEnd
      · exact absurd trivial (works _ inFront).2
      · simpa [providerCall] using atEnd
    rw [same, read] at readOther
    exact readOther

/-- Drawing the nonce charges nothing. -/
theorem charged_concat_iff {nonce : Block 12} :
    Charged state req (events ++ [⟨.fillNonce, nonce⟩]) response ↔
      Charged state req events response := by
  have works : Works ⟨.fillNonce, nonce⟩ := trivial
  have stays : ¬Marks ⟨.fillNonce, nonce⟩ := id
  have silent : ¬Answers state req response ⟨.fillNonce, nonce⟩ := by
    rintro ⟨answer, same, _⟩
    cases same
  constructor
  · intro charged
    refine ⟨fun event member => charged.works event (List.mem_append_left _ member), ?_, ?_⟩
    · simpa [or_and_right, exists_or, stays] using charged.marks
    · simpa [or_and_right, exists_or, silent] using charged.answers
  · rintro ⟨worksAll, ⟨mark, isMark, marks⟩, answer, isAnswer, answers⟩
    refine ⟨fun event member => ?_, ⟨mark, List.mem_append_left _ isMark, marks⟩,
      ⟨answer, List.mem_append_left _ isAnswer, answers⟩⟩
    rcases List.mem_append.mp member with before | last
    · exact worksAll event before
    · rw [List.mem_singleton.mp last]
      exact works

end Charging

/-! ## Replies -/

/-- What a relay sees of an encrypted reply. -/
def encryptedObservation (env : Envelope) : Observation :=
  .encrypted Envelope.VERSION env.tokenClass env.requestId env.clientNonceB64 env.kemPubB64 16
    (4 * ((env.tokenClass.envelopeResponsePlaintextBytes + 16 + 2) / 3))

/-- What a relay sees of a trouble. -/
def troubleObservation (env : Envelope) : Trouble → Observation
  | .unreadable problem => .clear 400 ⟨none, text "invalid_json", problem⟩
  | .oversized requestId payloadBytes => .clear 500 ⟨some requestId, text "internal_error",
      text "encrypt: " ++ (EnvelopeError.padding
        (.tooLarge payloadBytes env.tokenClass.envelopeResponsePlaintextBytes)).message⟩

theorem decimal_injective : Function.Injective decimal := by
  intro left right same
  have read := congrArg (fun digits => Nat.ofDigitChars 10 digits 0) same
  simp only [decimal] at read
  rwa [Nat.ofDigitChars_toDigits (by decide) (by decide),
    Nat.ofDigitChars_toDigits (by decide) (by decide)] at read

/-- A relay tells the troubles apart. -/
theorem troubleObservation_injective (env : Envelope) :
    Function.Injective (troubleObservation env) := by
  intro left right same
  cases left with
  | unreadable problem =>
      cases right with
      | unreadable other =>
          simp only [troubleObservation, Observation.clear.injEq, ErrorResponse.mk.injEq, true_and]
            at same
          rw [same]
      | oversized requestId payloadBytes => simp [troubleObservation] at same
  | oversized requestId payloadBytes =>
      cases right with
      | unreadable problem => simp [troubleObservation] at same
      | oversized otherId otherBytes =>
          rw [troubleObservation, troubleObservation] at same
          obtain ⟨sameId, _, messages⟩ := ErrorResponse.mk.inj (Observation.clear.inj same).2
          rw [List.append_cancel_left_eq, EnvelopeError.message_padding,
            EnvelopeError.message_padding, PaddingError.message_tooLarge,
            PaddingError.message_tooLarge] at messages
          simp only [List.append_assoc, List.append_cancel_left_eq] at messages
          have lengths := decimal_injective (List.append_cancel_right messages)
          rw [Option.some.inj sameId, lengths]

section Replies

variable {state : AppState} {env : Envelope} {plaintext : Bytes}
  {events : List (Program.Event Call Answer)} {result : Except ApiError Envelope}

/-- A response that does not fit is not sealed, and the error says how long it is. -/
theorem sealResponseAtGateway_of_tooLong {nonce : Block 12} {payloadJson : Bytes}
    (opened : openRequestAtGateway state.primitives state.aead state.keypair env = .ok plaintext)
    (tooLong : env.tokenClass.envelopeResponsePlaintextBytes < payloadJson.length) :
    sealResponseAtGateway state.primitives state.aead nonce state.keypair env payloadJson =
      .error (.padding (.tooLarge payloadJson.length
        env.tokenClass.envelopeResponsePlaintextBytes)) := by
  obtain ⟨transcript, carries, _⟩ := openRequestAtGateway_eq_ok_iff.mp opened
  have ephPub : decodeEphPubkey env = .ok transcript.ephPub :=
    decodeBlock_eq_ok_iff.mpr carries.ephPub
  have clientNonce : decodeClientNonce env = .ok transcript.clientNonce :=
    decodeBlock_eq_ok_iff.mpr carries.clientNonce
  have padding : padPlaintext payloadJson env.tokenClass.envelopeResponsePlaintextBytes =
      .error (.padding (.tooLarge payloadJson.length
        env.tokenClass.envelopeResponsePlaintextBytes)) := by
    rw [padPlaintext, padToLen, if_pos tooLong]
    rfl
  rw [sealResponseAtGateway, ephPub, clientNonce, padding, ensure, if_pos carries.version]
  rfl

/-- A sealed response shows the header of its request and the lengths of its class. -/
theorem observeEnvelope_of_seal (tagged : Tagged state.aead) {nonce : Block 12}
    {payloadJson : Bytes} {answer : Envelope}
    (isSealed : sealResponseAtGateway state.primitives state.aead nonce state.keypair env
      payloadJson = .ok answer) :
    observeEnvelope answer = encryptedObservation env := by
  obtain ⟨transcript, carries, answerCarries, _, _, padded, ciphertext, isPadded, encrypted,
    holds⟩ :=
    sealResponseAtGateway_eq_ok_iff.mp isSealed
  rw [observeEnvelope, encryptedObservation, answerCarries.version, answerCarries.tokenClass,
    answerCarries.requestId, answerCarries.clientNonce, answerCarries.ephPub, carries.tokenClass,
    carries.requestId, carries.clientNonce, carries.ephPub, holds.nonce, holds.ciphertext,
    Base64.length_encode, Base64.length_encode, tagged _ _ _ _ _ encrypted,
    length_of_padToLen isPadded, nonce.property, carries.tokenClass]

/-- The outcome of a request and what it is sealed to. -/
theorem observe_sealedResult (correct : Correct state.primitives state.aead)
    (tagged : Tagged state.aead)
    (opened : openRequestAtGateway state.primitives state.aead state.keypair env = .ok plaintext)
    (nonce : Block 12) (req : InferenceRequest) (outcome : InferOutcome) :
    observe (sealedResult state env req nonce outcome) =
      if (resultPayload req outcome).toVec.length ≤ env.tokenClass.envelopeResponsePlaintextBytes
      then encryptedObservation env
      else troubleObservation env
        (.oversized req.requestId (resultPayload req outcome).toVec.length) := by
  split
  next fits =>
    obtain ⟨answer, isSealed⟩ := (sealResponseAtGateway_isOk_iff correct opened nonce _).mpr fits
    rw [sealedResult_eq_ok_iff.mpr isSealed, observe, observeEnvelope_of_seal tagged isSealed]
  next tooLong =>
    rw [sealedResult, sealResponseAtGateway_of_tooLong opened (Nat.lt_of_not_le tooLong)]
    rfl

/-- A run has one trouble at most, and it is what the relay sees; without trouble it sees an
encrypted reply. -/
theorem exists_trouble_or (correct : Correct state.primitives state.aead)
    (tagged : Tagged state.aead)
    (opened : openRequestAtGateway state.primitives state.aead state.keypair env = .ok plaintext)
    (runs : Program.Runs (infer state env) events result) :
    (∃ trouble, observe result = troubleObservation env trouble ∧
      ∀ other, HasTrouble state env plaintext events other ↔ other = trouble) ∨
    (observe result = encryptedObservation env ∧
      ∀ other, ¬HasTrouble state env plaintext events other) := by
  rw [infer, opened] at runs
  simp only at runs
  split at runs
  next problem read =>
    obtain ⟨rfl, rfl⟩ := Program.runs_done_iff.mp runs
    refine .inl ⟨.unreadable problem, rfl, fun other => ?_⟩
    cases other <;> simp [HasTrouble, read, eq_comm]
  next req read =>
    obtain ⟨first, outcome, nonce, rfl, runsFirst, rfl⟩ := runs_inferCanonical_iff.mp runs
    rw [observe_sealedResult correct tagged opened]
    have oversized : ∀ {requestId payloadBytes}, HasTrouble state env plaintext
        (first ++ [⟨.fillNonce, nonce⟩]) (.oversized requestId payloadBytes) ↔
          ∃ response, outcome = .ok response ∧
            env.tokenClass.envelopeResponsePlaintextBytes < okPayloadBytes req response.body ∧
            requestId = req.requestId ∧ payloadBytes = okPayloadBytes req response.body := by
      intro requestId payloadBytes
      simp only [HasTrouble, read, Except.ok.injEq, exists_and_left, exists_eq_left',
        charged_concat_iff, outcome_eq_ok_iff_charged runsFirst]
    have readable : ∀ {problem}, ¬HasTrouble state env plaintext
        (first ++ [⟨.fillNonce, nonce⟩]) (.unreadable problem) := by
      intro problem unreadable
      rw [HasTrouble, read] at unreadable
      contradiction
    cases outcome with
    | error error =>
        have short : error.Short := (short_inferResult state env req).runs runsFirst
        rw [if_pos (length_toVec_error_le short _)]
        refine .inr ⟨rfl, fun other hasTrouble => ?_⟩
        cases other with
        | unreadable problem => exact readable hasTrouble
        | oversized requestId payloadBytes =>
            obtain ⟨_, isOk, _⟩ := oversized.mp hasTrouble
            contradiction
    | ok response =>
        obtain ⟨_, _, answers⟩ := ((outcome_eq_ok_iff_charged runsFirst).mp rfl).answers
        rw [length_resultPayload (output_of_answers answers)]
        split
        next fits =>
          refine .inr ⟨rfl, fun other hasTrouble => ?_⟩
          cases other with
          | unreadable problem => exact readable hasTrouble
          | oversized requestId payloadBytes =>
              obtain ⟨_, ⟨⟩, tooLong, _⟩ := oversized.mp hasTrouble
              exact absurd fits (Nat.not_le_of_lt tooLong)
        next tooLong =>
          refine .inl ⟨_, rfl, fun other => ?_⟩
          cases other with
          | unreadable problem => simp [readable]
          | oversized requestId payloadBytes =>
              rw [oversized]
              simp [Nat.lt_of_not_le tooLong]

end Replies

/-! ## Two runs -/

theorem troubleObservation_ne_encrypted {left right : Envelope} {trouble : Trouble} :
    troubleObservation left trouble ≠ encryptedObservation right := by
  cases trouble <;> simp [troubleObservation, encryptedObservation]

theorem SameHeader.encryptedObservation_eq {left right : Envelope}
    (header : SameHeader left right) :
    encryptedObservation left = encryptedObservation right := by
  rw [encryptedObservation, encryptedObservation, header.tokenClass, header.requestId,
    header.clientNonceB64, header.kemPubB64]

theorem SameHeader.troubleObservation_eq {left right : Envelope} (header : SameHeader left right) :
    troubleObservation left = troubleObservation right := by
  funext trouble
  cases trouble <;> simp only [troubleObservation, header.tokenClass]

/-- **A relay sees the same reply** for two requests with one header if and only if both have
the same trouble, or none. -/
theorem observe_eq_iff {state : AppState} {left right : Envelope}
    {leftPlaintext rightPlaintext : Bytes}
    {leftEvents rightEvents : List (Program.Event Call Answer)}
    {leftResult rightResult : Except ApiError Envelope}
    (correct : Correct state.primitives state.aead) (tagged : Tagged state.aead)
    (header : SameHeader left right)
    (openedLeft : openRequestAtGateway state.primitives state.aead state.keypair left =
      .ok leftPlaintext)
    (openedRight : openRequestAtGateway state.primitives state.aead state.keypair right =
      .ok rightPlaintext)
    (runsLeft : Program.Runs (infer state left) leftEvents leftResult)
    (runsRight : Program.Runs (infer state right) rightEvents rightResult) :
    observe leftResult = observe rightResult ↔ ∀ trouble,
      HasTrouble state left leftPlaintext leftEvents trouble ↔
        HasTrouble state right rightPlaintext rightEvents trouble := by
  rcases exists_trouble_or correct tagged openedLeft runsLeft with
    ⟨leftTrouble, seenLeft, onLeft⟩ | ⟨seenLeft, onLeft⟩ <;>
  rcases exists_trouble_or correct tagged openedRight runsRight with
    ⟨rightTrouble, seenRight, onRight⟩ | ⟨seenRight, onRight⟩
  · rw [seenLeft, seenRight, header.troubleObservation_eq,
      (troubleObservation_injective right).eq_iff]
    constructor
    · rintro rfl trouble
      rw [onLeft, onRight]
    · intro same
      exact (onRight _).mp ((same _).mp ((onLeft _).mpr rfl))
  · rw [seenLeft, seenRight]
    refine iff_of_false troubleObservation_ne_encrypted fun same => ?_
    exact onRight _ ((same _).mp ((onLeft _).mpr rfl))
  · rw [seenLeft, seenRight]
    refine iff_of_false troubleObservation_ne_encrypted.symm fun same => ?_
    exact onLeft _ ((same _).mpr ((onRight _).mpr rfl))
  · rw [seenLeft, seenRight, header.encryptedObservation_eq]
    exact iff_of_true rfl fun trouble => iff_of_false (onLeft trouble) (onRight trouble)

/-- A gateway that cannot read the byte 1 as a request, and reads all else as one that asks
for a stream. -/
def probedState : AppState :=
  { plainState with
    aead := .tagged _
    library := { plainState.library with
      readRequest := fun bytes =>
        if bytes = [1] then .error (text "expected value at line 1 column 1")
        else .ok { plainRequest with stream := some true } } }

/-- The envelope of one byte. -/
def probeEnvelope (byte : UInt8) : Envelope where
  version := Envelope.VERSION
  tokenClass := .c256
  requestId := Block.replicate 16 0
  clientNonceB64 := Base64.encode (List.replicate 32 0)
  kemPubB64 := Base64.encode (List.replicate 32 0)
  nonceB64 := Base64.encode (List.replicate 12 0)
  ciphertextB64 := Base64.encode ([byte] ++ List.replicate 8191 0 ++ List.replicate 16 0)

theorem sameHeader_probe (left right : UInt8) :
    SameHeader (probeEnvelope left) (probeEnvelope right) :=
  ⟨rfl, rfl, rfl, rfl, rfl⟩

theorem openRequest_probe {byte : UInt8} (nonzero : byte ≠ 0) :
    openRequestAtGateway probedState.primitives probedState.aead probedState.keypair
      (probeEnvelope byte) = .ok [byte] := by
  have requested : sealRequestForGateway .transparent (.tagged _) (Block.replicate 32 0)
      (Block.replicate 32 0) (Block.replicate 12 0)
      (probedState.keypair.publicBytes .transparent) .c256 (Block.replicate 16 0) [byte] =
        .ok (probeEnvelope byte, paidContext) :=
    sealRequestForGateway_eq_ok_iff.mpr ⟨rfl, ⟨rfl, rfl, rfl, rfl, rfl⟩, rfl,
      [byte] ++ List.replicate 8191 0, _, rfl, rfl, rfl, rfl⟩
  have trimmed : trimZeroPadding ([] ++ [byte]) = [] ++ [byte] := trimZeroPadding_concat nonzero
  rw [List.nil_append] at trimmed
  calc
    openRequestAtGateway .transparent (.tagged _) probedState.keypair (probeEnvelope byte) =
        .ok (trimZeroPadding [byte]) := openRequestAtGateway_of_seal correct_tagged requested
    _ = .ok [byte] := by rw [trimmed]

/-- The reply to what is no request. -/
def unreadableResult : Except ApiError Envelope :=
  .error (.ofBadRequest none (text "invalid_json") (text "expected value at line 1 column 1"))

theorem runs_unreadable : Program.Runs (infer probedState (probeEnvelope 1)) []
    unreadableResult := by
  rw [infer, openRequest_probe (by decide)]
  exact .done _

/-- The reply to a request for a stream. -/
def refusedResult : Except ApiError Envelope :=
  sealedResult probedState (probeEnvelope 2) { plainRequest with stream := some true }
    (Block.replicate 12 0) (.error (.badRequest plainRequest.requestId (text "stream_unsupported")
      (text "stream=true is not supported on /v1/infer")))

theorem runs_refused : Program.Runs (infer probedState (probeEnvelope 2))
    [⟨.fillNonce, Block.replicate 12 0⟩] refusedResult := by
  rw [infer, openRequest_probe (by decide)]
  exact runs_inferCanonical_iff.mpr ⟨[], _, _, rfl, .done _, rfl⟩

theorem observe_eq_iff_probe : observe unreadableResult = observe refusedResult ↔ ∀ trouble,
    HasTrouble probedState (probeEnvelope 1) [1] [] trouble ↔
      HasTrouble probedState (probeEnvelope 2) [2] [⟨.fillNonce, Block.replicate 12 0⟩] trouble :=
  observe_eq_iff correct_tagged (tagged_tagged _) (sameHeader_probe 1 2)
    (openRequest_probe (by decide)) (openRequest_probe (by decide)) runs_unreadable runs_refused

/-- The reply depends on what is in the envelope: the parser's words are sent in clear. -/
theorem not_observe_eq_probe : ¬∀ (state : AppState) (left right : Envelope)
    (leftPlaintext rightPlaintext : Bytes)
    (leftEvents rightEvents : List (Program.Event Call Answer))
    (leftResult rightResult : Except ApiError Envelope),
    Correct state.primitives state.aead → Tagged state.aead → SameHeader left right →
    openRequestAtGateway state.primitives state.aead state.keypair left = .ok leftPlaintext →
    openRequestAtGateway state.primitives state.aead state.keypair right = .ok rightPlaintext →
    Program.Runs (infer state left) leftEvents leftResult →
    Program.Runs (infer state right) rightEvents rightResult →
    observe leftResult = observe rightResult := by
  intro always
  have same := always probedState (probeEnvelope 1) (probeEnvelope 2) [1] [2] []
    [⟨.fillNonce, Block.replicate 12 0⟩] unreadableResult refusedResult correct_tagged
    (tagged_tagged _) (sameHeader_probe 1 2) (openRequest_probe (by decide))
    (openRequest_probe (by decide)) runs_unreadable runs_refused
  have clear : observe unreadableResult = troubleObservation (probeEnvelope 2)
      (.unreadable (text "expected value at line 1 column 1")) := rfl
  rw [clear, refusedResult, observe_sealedResult correct_tagged (tagged_tagged _)
    (openRequest_probe (by decide))] at same
  split at same
  next => exact troubleObservation_ne_encrypted same
  next => cases troubleObservation_injective _ same

end ZkLlmGateway.Gateway
