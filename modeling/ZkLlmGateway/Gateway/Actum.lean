import ZkLlmGateway.Gateway.Delivery
import ZkLlmGateway.Interaction.Interpret

/-!
# The Actum verifier

Tickets are verified by a service.  The gateway names the commitment of the
request and the class, and accepts only an answer that repeats both and reports
a finalized authorization.  What the service, the store and the provider answer
is left open; the provider is called only when every check has passed and the
gateway's own reservation is durable.
-/

namespace ZkLlmGateway.Gateway

open ZkLlmGateway.Encoding ZkLlmGateway.Common ZkLlmGateway.Interaction

/-! ## The service -/

def maxActumEvidenceBytes : Nat :=
  2 * 1024 * 1024

structure VerifyRequest where
  protocol : Text
  audience : Text
  requestCommitmentB64 : Text
  replayIdentifierB64 : Text
  tokenClass : TokenClass
  paymentEvidenceB64 : Text

structure VerifyResponse where
  authorized : Bool
  finalized : Bool
  requestCommitmentB64 : Text
  authorizationIdB64 : Text
  tokenClass : TokenClass

/-- How a request to the service ends; its body may fail to arrive. -/
inductive ServiceReply
  | sendFailed (reason : Text)
  | response (status : Nat) (body : Except Text Bytes)

/-- Calls of a gateway that asks the service itself. -/
inductive ServiceCall
  | service (endpoint bearerToken : Text) (request : VerifyRequest)
  | gateway (query : Call)

@[reducible]
def ServiceAnswer : ServiceCall → Type
  | .service _ _ _ => ServiceReply
  | .gateway query => Answer query

/-- Its client shows a status and reads a response. -/
structure ActumVerifier where
  endpoint : Text
  bearerToken : Text
  audience : Text
  showStatus : Nat → Text
  readResponse : Bytes → Except Text VerifyResponse

namespace ActumVerifier

def verifyRequest (verifier : ActumVerifier) (ticket : ZkTicket) (context : VerificationContext) :
    VerifyRequest where
  protocol := text "actum.payment-finality.v1"
  audience := verifier.audience
  requestCommitmentB64 := Base64.encode context.requestCommitment
  replayIdentifierB64 := Base64.encode ticket.nullifier
  tokenClass := ticket.tokenClass
  paymentEvidenceB64 := Base64.encode ticket.proof

/-- An answer is accepted only if it is exact and final. -/
def acceptResponse (library : Library) (ticket : ZkTicket) (context : VerificationContext)
    (response : VerifyResponse) : Except ZkVerifyError VerifiedTicket :=
  match Base64.decode response.requestCommitmentB64 with
  | none => .error .invalidProof
  | some echoedCommitment =>
      match Base64.decode response.authorizationIdB64 with
      | none => .error .invalidProof
      | some authorizationId =>
          if !response.authorized ∨ !response.finalized ∨ response.tokenClass ≠ ticket.tokenClass ∨
              echoedCommitment ≠ context.requestCommitment ∨ authorizationId.isEmpty then
            .error .invalidProof
          else
            .ok { tokenClass := response.tokenClass
                  nullifierKey := library.sha256 authorizationId }

/-- What the gateway makes of the service's reply. -/
def readReply (verifier : ActumVerifier) (library : Library) (ticket : ZkTicket)
    (context : VerificationContext) : ServiceReply → Except ZkVerifyError VerifiedTicket
  | .sendFailed reason => .error (.internal (text "Actum verifier unavailable: " ++ reason))
  | .response status body =>
      if status = 401 ∨ status = 403 ∨ status = 422 then .error .invalidProof
      else if !isSuccess status then
        .error (.internal (text "Actum verifier returned " ++ verifier.showStatus status))
      else
        match body.bind verifier.readResponse with
        | .error reason => .error (.internal (text "malformed Actum response: " ++ reason))
        | .ok response => acceptResponse library ticket context response

def verify (verifier : ActumVerifier) (library : Library) (ticket : ZkTicket)
    (context : VerificationContext) :
    Program ServiceCall ServiceAnswer (Except ZkVerifyError VerifiedTicket) :=
  if context.requestCommitment.length ≠ 48 ∨ ticket.commitmentRoot ≠ context.requestCommitment ∨
      ticket.nullifier.isEmpty ∨ ticket.proof.isEmpty ∨
      ticket.proof.length > maxActumEvidenceBytes then
    .done (.error .invalidProof)
  else
    .call (.service verifier.endpoint verifier.bearerToken (verifier.verifyRequest ticket context))
      fun reply => .done (verifier.readReply library ticket context reply)

/-- The service verifies tickets, and all other calls stay as they are. -/
def serve (verifier : ActumVerifier) (library : Library) :
    (query : Call) → Program ServiceCall ServiceAnswer (Answer query)
  | .verify ticket context => verifier.verify library ticket context
  | .now => .call (.gateway .now) .done
  | .compareAndSwap key old new => .call (.gateway (.compareAndSwap key old new)) .done
  | .get key => .call (.gateway (.get key)) .done
  | .flush => .call (.gateway .flush) .done
  | .post url bearer body => .call (.gateway (.post url bearer body)) .done
  | .fillNonce => .call (.gateway .fillNonce) .done

/-- The handler of a gateway that is configured with the service. -/
def infer (verifier : ActumVerifier) (state : AppState) (env : Envelope) :
    Program ServiceCall ServiceAnswer (Except ApiError Envelope) :=
  (Gateway.infer state env).interpret (verifier.serve state.library)

end ActumVerifier

/-! ## Reservations -/

/-- A value of the store is replaced. -/
def Changes : Program.Event Call Answer → Prop
  | ⟨.compareAndSwap _ _ _, .ok true⟩ => True
  | _ => False

/-- How a reservation ends. -/
def Reserves (rkey pendingVal : Bytes) (events : List (Program.Event Call Answer)) :
    Except ReserveError Unit → Prop
  | .ok () => ∃ front old, (∀ event ∈ front, Works event) ∧ events = front ++
      [⟨.compareAndSwap rkey old (some pendingVal), .ok true⟩, ⟨.flush, .ok ()⟩]
  | .error .alreadyUsed => ∀ event ∈ events, ¬Changes event
  | .error .db => ∃ event ∈ events, ¬Works event

theorem reserves_of_runs {rkey pendingVal : Bytes} {pendingTtlMs : UInt64}
    {events : List (Program.Event Call Answer)} {outcome : Except ReserveError Unit}
    (runs : Program.Runs (reserveNullifier rkey pendingVal pendingTtlMs) events outcome) :
    Reserves rkey pendingVal events outcome := by
  obtain ⟨swapped, rest, rfl, afterSwap⟩ := Program.runs_call_iff.mp runs
  rcases swapped with problem | (_ | _)
  · obtain ⟨rfl, rfl⟩ := Program.runs_done_iff.mp afterSwap
    exact ⟨_, .head _, id⟩
  · obtain ⟨found, rest, rfl, afterGet⟩ := Program.runs_call_iff.mp afterSwap
    rcases found with problem | (_ | val)
    · obtain ⟨rfl, rfl⟩ := Program.runs_done_iff.mp afterGet
      exact ⟨_, .tail _ (.head _), id⟩
    · obtain ⟨rfl, rfl⟩ := Program.runs_done_iff.mp afterGet
      simp [Reserves, Changes]
    · simp only [Program.bind_done] at afterGet
      split at afterGet
      next =>
        obtain ⟨rfl, rfl⟩ := Program.runs_done_iff.mp afterGet
        simp [Reserves, Changes]
      next status ts _ =>
        split at afterGet
        next =>
          obtain ⟨now, rest, rfl, afterNow⟩ := Program.runs_call_iff.mp afterGet
          simp only [Program.bind_done] at afterNow
          split at afterNow
          next =>
            obtain ⟨swapped, rest, rfl, afterReplace⟩ := Program.runs_call_iff.mp afterNow
            rcases swapped with problem | (_ | _)
            · obtain ⟨rfl, rfl⟩ := Program.runs_done_iff.mp afterReplace
              exact ⟨_, .tail _ (.tail _ (.tail _ (.head _))), id⟩
            · obtain ⟨rfl, rfl⟩ := Program.runs_done_iff.mp afterReplace
              simp [Reserves, Changes]
            · obtain ⟨flushed, rest, rfl, afterFlush⟩ := Program.runs_call_iff.mp afterReplace
              rcases flushed with problem | _
              · obtain ⟨rfl, rfl⟩ := Program.runs_done_iff.mp afterFlush
                exact ⟨_, .tail _ (.tail _ (.tail _ (.tail _ (.head _)))), id⟩
              · obtain ⟨rfl, rfl⟩ := Program.runs_done_iff.mp afterFlush
                exact ⟨[_, _, _], some val, by simp [Works], rfl⟩
          next =>
            obtain ⟨rfl, rfl⟩ := Program.runs_done_iff.mp afterNow
            simp [Reserves, Changes]
        next =>
          obtain ⟨rfl, rfl⟩ := Program.runs_done_iff.mp afterGet
          simp [Reserves, Changes]
  · obtain ⟨flushed, rest, rfl, afterFlush⟩ := Program.runs_call_iff.mp afterSwap
    rcases flushed with problem | _
    · obtain ⟨rfl, rfl⟩ := Program.runs_done_iff.mp afterFlush
      exact ⟨_, .tail _ (.head _), id⟩
    · obtain ⟨rfl, rfl⟩ := Program.runs_done_iff.mp afterFlush
      exact ⟨[], none, by simp, rfl⟩

/-! ## Calls to the provider -/

def IsPost : Call → Prop
  | .post _ _ _ => True
  | _ => False

theorem only_reserve (rkey pendingVal : Bytes) (pendingTtlMs : UInt64) :
    (reserveNullifier rkey pendingVal pendingTtlMs).Only fun query => ¬IsPost query := by
  refine ⟨id, fun swapped => ?_⟩
  rcases swapped with problem | (_ | _)
  · trivial
  · refine ⟨id, fun found => ?_⟩
    rcases found with problem | (_ | val)
    · trivial
    · trivial
    · simp only [Program.bind_done]
      split
      next => trivial
      next =>
        split
        next =>
          refine ⟨id, fun now => ?_⟩
          simp only [Program.bind_done]
          split
          next =>
            refine ⟨id, fun swapped => ?_⟩
            rcases swapped with problem | (_ | _)
            · trivial
            · trivial
            · refine ⟨id, fun flushed => ?_⟩
              rcases flushed with problem | _ <;> trivial
          next => trivial
        next => trivial
  · refine ⟨id, fun flushed => ?_⟩
    rcases flushed with problem | _ <;> trivial

/-- What is done with the provider's answer. -/
theorem only_afterPost (state : AppState) (req : InferenceRequest) (rkey pendingVal : Bytes)
    {events : List (Program.Event Call Answer)} {next : Call}
    (makes : Program.Makes (answerReserved state req rkey pendingVal) events next)
    (isPost : IsPost next) : events = [] ∧ next = providerCall state req := by
  rcases Program.makes_call_iff.mp makes with first | ⟨answer, rest, rfl, later⟩
  · exact first
  · refine absurd isPost (@Program.Only.makes _ _ _ (fun query => ¬IsPost query) _ _ _ ?_ later)
    simp only [Program.bind_done]
    split
    next =>
      refine ⟨id, fun swapped => ?_⟩
      rcases swapped with problem | (_ | _)
      · trivial
      · trivial
      · refine ⟨id, fun flushed => ?_⟩
        rcases flushed with problem | _ <;> trivial
    next =>
      refine ⟨id, fun now => ⟨id, fun swapped => ?_⟩⟩
      rcases swapped with problem | (_ | _)
      · trivial
      · trivial
      · refine ⟨id, fun flushed => ?_⟩
        rcases flushed with problem | _ <;> trivial

/-- The provider is called for a checked request, under a reservation of its own. -/
theorem makes_post {state : AppState} {env : Envelope} {events : List (Program.Event Call Answer)}
    {next : Call} (makes : Program.Makes (infer state env) events next) (isPost : IsPost next) :
    ∃ plaintext req verified now reservation,
      openRequestAtGateway state.primitives state.aead state.keypair env = .ok plaintext ∧
      state.library.readRequest plaintext = .ok req ∧ checkRequest env req = .ok () ∧
      next = providerCall state req ∧
      events = ⟨verifyCall state req, .ok verified⟩ :: ⟨.now, now⟩ :: reservation ∧
      Program.Runs (reserveNullifier (ticketKey state.library req.ticket verified)
        (encodeNullifierValue pendingStatus now) state.nullifierPendingTtlMs) reservation
          (.ok ()) := by
  unfold infer at makes
  split at makes
  next => exact absurd makes Program.not_makes_done
  next plaintext opened =>
    split at makes
    next => exact absurd makes Program.not_makes_done
    next req read =>
      rcases Program.makes_bind_iff.mp makes with inResult | ⟨_, _, result, _, _, inSeal⟩
      · unfold inferResult at inResult
        split at inResult
        next => exact absurd inResult Program.not_makes_done
        next checked =>
          rcases Program.makes_call_iff.mp inResult with ⟨_, rfl⟩ | ⟨answer, rest, rfl, afterVerify⟩
          · exact isPost.elim
          · rcases answer with problem | verified
            · exact absurd afterVerify Program.not_makes_done
            · rcases Program.makes_call_iff.mp afterVerify with
                ⟨_, rfl⟩ | ⟨now, rest, rfl, afterNow⟩
              · exact isPost.elim
              · simp only [Program.bind_done] at afterNow
                rcases Program.makes_bind_iff.mp afterNow with
                  inReserve | ⟨reservation, rest, outcome, rfl, runs, afterReserve⟩
                · exact absurd isPost ((only_reserve _ _ _).makes inReserve)
                · rcases outcome with problem | _
                  · exact absurd afterReserve Program.not_makes_done
                  · obtain ⟨rfl, rfl⟩ := only_afterPost state req _ _ afterReserve isPost
                    rw [List.append_nil]
                    exact ⟨plaintext, req, verified, now, reservation, opened, read, checked, rfl,
                      rfl, runs⟩
      · rcases Program.makes_call_iff.mp inSeal with ⟨_, rfl⟩ | ⟨nonce, rest, rfl, afterNonce⟩
        · exact isPost.elim
        · simp only [Program.bind_done] at afterNonce
          split at afterNonce <;> exact absurd afterNonce Program.not_makes_done

/-! ## What has to have passed -/

/-- The service has answered with an exact and final authorization for the ticket. -/
structure Accepted (verifier : ActumVerifier) (ticket : ZkTicket) (context : VerificationContext)
    (events : List (Program.Event ServiceCall ServiceAnswer)) (authorizationId : Bytes) : Prop where
  commitmentLength : context.requestCommitment.length = 48
  commitmentRoot : ticket.commitmentRoot = context.requestCommitment
  replayIdentifier : ticket.nullifier ≠ []
  evidence : ticket.proof ≠ []
  evidenceLength : ticket.proof.length ≤ maxActumEvidenceBytes
  answered : ∃ status body response,
    ⟨.service verifier.endpoint verifier.bearerToken (verifier.verifyRequest ticket context),
      .response status (.ok body)⟩ ∈ events ∧
    isSuccess status = true ∧ verifier.readResponse body = .ok response ∧
    response.authorized = true ∧ response.finalized = true ∧
    response.tokenClass = ticket.tokenClass ∧
    Base64.decode response.requestCommitmentB64 = some context.requestCommitment ∧
    Base64.decode response.authorizationIdB64 = some authorizationId
  authorizationId : authorizationId ≠ []

/-- Everything that comes before the provider is called for a request. -/
structure Gated (verifier : ActumVerifier) (state : AppState) (env : Envelope)
    (events : List (Program.Event ServiceCall ServiceAnswer)) (req : InferenceRequest) : Prop where
  opened : ∃ plaintext,
    openRequestAtGateway state.primitives state.aead state.keypair env = .ok plaintext ∧
      state.library.readRequest plaintext = .ok req
  envelopeClass : req.tokenClass = env.tokenClass
  ticketClass : req.ticket.tokenClass = req.tokenClass
  promptBytes : approxPromptBytes req.messages ≤ req.tokenClass.maxPromptBytes
  stream : req.stream ≠ some true
  reserved : ∃ authorizationId front old now,
    Accepted verifier req.ticket ⟨req.authorizationCommitment state.library.shake256⟩ front
      authorizationId ∧
    ⟨.gateway .now, now⟩ ∈ front ∧
    events = front ++ [
      ⟨.gateway (.compareAndSwap (state.library.sha256 authorizationId) old
        (some (encodeNullifierValue pendingStatus now))), .ok true⟩,
      ⟨.gateway .flush, .ok ()⟩]

theorem Accepted.append {verifier : ActumVerifier} {ticket : ZkTicket}
    {context : VerificationContext} {events : List (Program.Event ServiceCall ServiceAnswer)}
    {authorizationId : Bytes} (accepted : Accepted verifier ticket context events authorizationId)
    (later : List (Program.Event ServiceCall ServiceAnswer)) :
    Accepted verifier ticket context (events ++ later) authorizationId :=
  { accepted with
    answered := by
      obtain ⟨status, body, response, member, checks⟩ := accepted.answered
      exact ⟨status, body, response, List.mem_append_left _ member, checks⟩ }

section Service

variable {verifier : ActumVerifier} {library : Library} {ticket : ZkTicket}
  {context : VerificationContext}

theorem acceptResponse_eq_ok_iff {response : VerifyResponse} {verified : VerifiedTicket} :
    ActumVerifier.acceptResponse library ticket context response = .ok verified ↔
      ∃ authorizationId,
        Base64.decode response.requestCommitmentB64 = some context.requestCommitment ∧
        Base64.decode response.authorizationIdB64 = some authorizationId ∧
        response.authorized = true ∧ response.finalized = true ∧
        response.tokenClass = ticket.tokenClass ∧ authorizationId ≠ [] ∧
        verified = ⟨ticket.tokenClass, library.sha256 authorizationId⟩ := by
  unfold ActumVerifier.acceptResponse
  cases Base64.decode response.requestCommitmentB64 with
  | none => simp
  | some echoed =>
      cases Base64.decode response.authorizationIdB64 with
      | none => simp
      | some authorizationId =>
          simp only [Option.some.injEq]
          split
          next refused =>
            simp only [Bool.not_eq_true', List.isEmpty_iff] at refused
            simp only [reduceCtorEq, false_iff]
            rintro ⟨_, rfl, rfl, authorized, finalized, tokenClass, nonempty, _⟩
            simp [authorized, finalized, tokenClass, nonempty] at refused
          next accepted =>
            simp only [Bool.not_eq_true', List.isEmpty_iff, not_or, Bool.not_eq_false,
              not_not] at accepted
            obtain ⟨authorized, finalized, tokenClass, rfl, nonempty⟩ := accepted
            simp [authorized, finalized, tokenClass, nonempty, eq_comm]

theorem readReply_eq_ok_iff {reply : ServiceReply} {verified : VerifiedTicket} :
    verifier.readReply library ticket context reply = .ok verified ↔
      ∃ status body response, reply = .response status (.ok body) ∧ isSuccess status = true ∧
        verifier.readResponse body = .ok response ∧
        ActumVerifier.acceptResponse library ticket context response = .ok verified := by
  cases reply with
  | sendFailed reason => simp [ActumVerifier.readReply]
  | response status body =>
      rw [ActumVerifier.readReply]
      split
      next refused =>
        simp only [reduceCtorEq, false_iff]
        rintro ⟨_, _, _, same, success, _⟩
        cases same
        rcases refused with rfl | rfl | rfl <;> contradiction
      next =>
        split
        next failed =>
          simp only [reduceCtorEq, false_iff]
          rintro ⟨_, _, _, same, success, _⟩
          cases same
          simp [success] at failed
        next succeeded =>
          rw [Bool.not_eq_true', Bool.not_eq_false] at succeeded
          cases body with
          | error reason => simp [Except.bind]
          | ok body =>
              cases read : verifier.readResponse body with
              | error reason => simp [Except.bind, read]
              | ok response => simp [Except.bind, read, succeeded]

/-- A verified ticket has been accepted, and its key is the hash of the authorization. -/
theorem accepted_of_runs {events : List (Program.Event ServiceCall ServiceAnswer)}
    {verified : VerifiedTicket}
    (runs : Program.Runs (verifier.verify library ticket context) events (.ok verified)) :
    ∃ authorizationId, Accepted verifier ticket context events authorizationId ∧
      verified.nullifierKey = library.sha256 authorizationId := by
  unfold ActumVerifier.verify at runs
  split at runs
  next =>
    obtain ⟨_, failed⟩ := Program.runs_done_iff.mp runs
    contradiction
  next checked =>
    simp only [not_or, not_not, List.isEmpty_iff, Nat.not_lt, gt_iff_lt] at checked
    obtain ⟨length, root, replayIdentifier, evidence, evidenceLength⟩ := checked
    obtain ⟨reply, rest, rfl, finished⟩ := Program.runs_call_iff.mp runs
    obtain ⟨rfl, accepted⟩ := Program.runs_done_iff.mp finished
    obtain ⟨status, body, response, rfl, success, read, accepted⟩ :=
      readReply_eq_ok_iff.mp accepted.symm
    obtain ⟨authorizationId, echoed, identity, authorized, finalized, tokenClass, nonempty, rfl⟩ :=
      acceptResponse_eq_ok_iff.mp accepted
    exact ⟨authorizationId, ⟨length, root, replayIdentifier, evidence, evidenceLength, ⟨status,
      body, response, List.mem_cons_self, success, read, authorized, finalized, tokenClass, echoed,
      identity⟩, nonempty⟩, rfl⟩

end Service

/-! ## The gateway's own calls -/

/-- An event at the gateway itself. -/
def OnGateway (holds : Program.Event Call Answer → Prop) :
    Program.Event ServiceCall ServiceAnswer → Prop
  | ⟨.service _ _ _, _⟩ => False
  | ⟨.gateway query, answer⟩ => holds ⟨query, answer⟩

/-- Events that are not left to the service are the gateway's. -/
theorem exists_onGateway_iff {verifier : ActumVerifier} {library : Library}
    {holds : Program.Event Call Answer → Prop} {events : List (Program.Event Call Answer)}
    {inner : List (Program.Event ServiceCall ServiceAnswer)}
    (served : Program.Served (verifier.serve library) events inner)
    (notVerify : ∀ ticket context answer, ¬holds ⟨.verify ticket context, answer⟩) :
    (∃ event ∈ inner, OnGateway holds event) ↔ ∃ event ∈ events, holds event := by
  induction served with
  | nil => simp
  | @cons event events first second runs _ inductionHypothesis =>
      have single : (∃ event ∈ first, OnGateway holds event) ↔ holds event := by
        obtain ⟨query, answer⟩ := event
        cases query with
        | verify ticket context =>
            simp only [notVerify, iff_false, not_exists, not_and]
            intro event member
            change Program.Runs (verifier.verify library ticket context) first answer at runs
            unfold ActumVerifier.verify at runs
            split at runs
            next =>
              obtain ⟨rfl, _⟩ := Program.runs_done_iff.mp runs
              simp at member
            next =>
              obtain ⟨reply, rest, rfl, finished⟩ := Program.runs_call_iff.mp runs
              obtain ⟨rfl, _⟩ := Program.runs_done_iff.mp finished
              rw [List.mem_singleton] at member
              subst member
              exact id
        | _ =>
            obtain ⟨reply, rest, rfl, finished⟩ := Program.runs_call_iff.mp runs
            obtain ⟨rfl, rfl⟩ := Program.runs_done_iff.mp finished
            simp [OnGateway]
      simp only [List.mem_append, or_and_right, exists_or, single, inductionHypothesis,
        List.mem_cons, exists_eq_left]

theorem served_cons {verifier : ActumVerifier} {library : Library} {query : Call}
    {answer : Answer query} {events : List (Program.Event Call Answer)}
    {inner : List (Program.Event ServiceCall ServiceAnswer)}
    (plain : verifier.serve library query = .call (.gateway query) .done)
    (served : Program.Served (verifier.serve library) (⟨query, answer⟩ :: events) inner) :
    ∃ rest, inner = ⟨.gateway query, answer⟩ :: rest ∧
      Program.Served (verifier.serve library) events rest := by
  cases served with
  | cons runs rest =>
      rw [plain] at runs
      obtain ⟨reply, _, rfl, finished⟩ := Program.runs_call_iff.mp runs
      obtain ⟨rfl, rfl⟩ := Program.runs_done_iff.mp finished
      exact ⟨_, rfl, rest⟩

theorem makes_serve {verifier : ActumVerifier} {library : Library} {query next : Call}
    {events : List (Program.Event ServiceCall ServiceAnswer)}
    (makes : Program.Makes (verifier.serve library query) events (.gateway next)) :
    events = [] ∧ next = query := by
  cases query with
  | verify ticket context =>
      change Program.Makes (verifier.verify library ticket context) events _ at makes
      unfold ActumVerifier.verify at makes
      split at makes
      next => exact absurd makes Program.not_makes_done
      next =>
        rcases Program.makes_call_iff.mp makes with ⟨_, same⟩ | ⟨_, _, _, finished⟩
        · contradiction
        · exact absurd finished Program.not_makes_done
  | _ =>
      rcases Program.makes_call_iff.mp makes with ⟨rfl, same⟩ | ⟨_, _, _, finished⟩
      · exact ⟨rfl, ServiceCall.gateway.inj same⟩
      · exact absurd finished Program.not_makes_done

/-- The checks that a request has passed. -/
theorem of_checkRequest {env : Envelope} {req : InferenceRequest}
    (checked : checkRequest env req = .ok ()) :
    req.tokenClass = env.tokenClass ∧ req.ticket.tokenClass = req.tokenClass ∧
      approxPromptBytes req.messages ≤ req.tokenClass.maxPromptBytes ∧ req.stream ≠ some true := by
  unfold checkRequest at checked
  split at checked
  next => contradiction
  next envelopeClass =>
    split at checked
    next => contradiction
    next ticketClass =>
      split at checked
      next => contradiction
      next promptBytes =>
        split at checked
        next => contradiction
        next stream =>
          exact ⟨not_not.mp envelopeClass, not_not.mp ticketClass, Nat.le_of_not_lt promptBytes,
            stream⟩

/-- A run without a call of the provider leaves the store as it is, unless the store fails. -/
theorem unchanged_of_runs {state : AppState} {env : Envelope}
    {events : List (Program.Event Call Answer)} {result : Except ApiError Envelope}
    (runs : Program.Runs (infer state env) events result)
    (notPosted : ¬∃ event ∈ events, IsPost event.query) :
    (∃ event ∈ events, ¬Works event) ∨ ¬∃ event ∈ events, Changes event := by
  have unchanged : ∀ {nonce}, ¬Changes ⟨.fillNonce, nonce⟩ := id
  unfold infer at runs
  split at runs
  next =>
    obtain ⟨rfl, _⟩ := Program.runs_done_iff.mp runs
    simp
  next =>
    split at runs
    next =>
      obtain ⟨rfl, _⟩ := Program.runs_done_iff.mp runs
      simp
    next req _ =>
      obtain ⟨first, outcome, nonce, rfl, runs, _⟩ := runs_inferCanonical_iff.mp runs
      simp only [List.mem_append, List.mem_singleton, or_and_right, exists_or, exists_eq_left,
        not_or] at notPosted ⊢
      unfold inferResult at runs
      split at runs
      next =>
        obtain ⟨rfl, _⟩ := Program.runs_done_iff.mp runs
        simp [unchanged]
      next =>
        obtain ⟨answer, rest, rfl, afterVerify⟩ := Program.runs_call_iff.mp runs
        rcases answer with problem | verified
        · obtain ⟨rfl, _⟩ := Program.runs_done_iff.mp afterVerify
          simp [Changes, verifyCall]
        · obtain ⟨now, rest, rfl, afterNow⟩ := Program.runs_call_iff.mp afterVerify
          simp only [Program.bind_done] at afterNow
          obtain ⟨reservation, later, reserved, rfl, reserving, afterReserve⟩ :=
            Program.runs_bind_iff.mp afterNow
          have reserves := reserves_of_runs reserving
          rcases reserved with (_ | _) | _
          · obtain ⟨rfl, _⟩ := Program.runs_done_iff.mp afterReserve
            right
            simp only [Reserves] at reserves
            simp only [List.append_nil, List.mem_cons, or_and_right, exists_or, exists_eq_left,
              not_or, unchanged]
            refine ⟨⟨id, id, ?_⟩, id⟩
            rintro ⟨event, member, changes⟩
            exact reserves event member changes
          · obtain ⟨rfl, _⟩ := Program.runs_done_iff.mp afterReserve
            obtain ⟨event, member, fails⟩ := reserves
            exact .inl (.inl ⟨event, by simp [member], fails⟩)
          · obtain ⟨answer, rest, rfl, _⟩ := Program.runs_call_iff.mp afterReserve
            exact absurd ⟨⟨providerCall state req, answer⟩, by simp, trivial⟩ notPosted.1

/-- **The provider is called behind the gate only**: whenever it is called, every check of
the request, of its ticket and of the service's answer has passed and the gateway's own
reservation is stored; and a run that does not call it leaves the store as it was, unless
the store failed. -/
theorem provider_gated (verifier : ActumVerifier) (state : AppState)
    (digest : ∀ bytes, (state.library.sha256 bytes).length = 32) (env : Envelope) :
    (∀ events url bearer body, Program.Makes (verifier.infer state env) events
        (.gateway (.post url bearer body)) →
      ∃ req, Gated verifier state env events req ∧
        Call.post url bearer body = providerCall state req) ∧
    ∀ events result, Program.Runs (verifier.infer state env) events result →
      (¬∃ event ∈ events, OnGateway (fun event => IsPost event.query) event) →
        (∃ event ∈ events, OnGateway (fun event => ¬Works event) event) ∨
          ¬∃ event ∈ events, OnGateway Changes event := by
  constructor
  · intro events url bearer body makes
    obtain ⟨outer, query, before, after, rfl, makesOuter, served, inLast⟩ :=
      Program.exists_of_makes_interpret makes
    obtain ⟨rfl, rfl⟩ := makes_serve inLast
    obtain ⟨plaintext, req, verified, now, reservation, opened, read, checked, isCall, rfl,
      reserving⟩ := makes_post makesOuter trivial
    obtain ⟨front, old, _, rfl⟩ := reserves_of_runs reserving
    cases served with
    | cons verifying afterVerify =>
        obtain ⟨authorizationId, accepted, key⟩ := accepted_of_runs verifying
        obtain ⟨_, rfl, afterNow⟩ := served_cons rfl afterVerify
        obtain ⟨middle, _, rfl, _, atSwap⟩ := afterNow.of_append
        obtain ⟨_, rfl, atFlush⟩ := served_cons rfl atSwap
        obtain ⟨_, rfl, atEnd⟩ := served_cons rfl atFlush
        cases atEnd
        have named : ticketKey state.library req.ticket verified =
            state.library.sha256 authorizationId := by
          have length := digest authorizationId
          rw [ticketKey, if_neg, key]
          rw [key, List.isEmpty_iff]
          rintro empty
          simp [empty] at length
        obtain ⟨envelopeClass, ticketClass, promptBytes, stream⟩ := of_checkRequest checked
        refine ⟨req, ⟨⟨plaintext, opened, read⟩, envelopeClass, ticketClass, promptBytes, stream,
          authorizationId, _ ++ ⟨.gateway .now, now⟩ :: middle, old, now,
          accepted.append _, by simp, ?_⟩, isCall⟩
        rw [named]
        simp
  · intro inner result runs notPosted
    obtain ⟨events, runs, served⟩ := Program.exists_of_runs_interpret runs
    rw [exists_onGateway_iff served fun _ _ _ => id] at notPosted
    rw [exists_onGateway_iff served fun _ _ _ works => works trivial,
      exists_onGateway_iff served fun _ _ _ => id]
    exact unchanged_of_runs runs notPosted

/-- A request whose ticket is bound to its commitment. -/
def boundRequest : InferenceRequest :=
  { plainRequest with
    ticket := {
      commitmentRoot := List.replicate 48 0
      nullifier := [7]
      tokenClass := .c256
      proof := [1] } }

/-- A gateway that decrypts that request; its hash is the first thirty-two bytes, zeros added. -/
def boundState : AppState :=
  { plainState with
    library := { plainState.library with
      sha256 := fun bytes => (bytes ++ List.replicate 32 0).take 32
      readRequest := fun _ => .ok boundRequest } }

/-- The service authorizes it. -/
def localVerifier : ActumVerifier where
  endpoint := text "http://localhost:9000"
  bearerToken := text "secret"
  audience := text "zerok:test"
  showStatus := fun _ => []
  readResponse := fun _ => .ok {
    authorized := true
    finalized := true
    requestCommitmentB64 := Base64.encode (List.replicate 48 0)
    authorizationIdB64 := Base64.encode [1]
    tokenClass := .c256 }

theorem verify_bound : localVerifier.verify boundState.library boundRequest.ticket
    ⟨boundRequest.authorizationCommitment boundState.library.shake256⟩ =
      .call (.service localVerifier.endpoint localVerifier.bearerToken
        (localVerifier.verifyRequest boundRequest.ticket ⟨List.replicate 48 0⟩)) fun reply =>
        .done (localVerifier.readReply boundState.library boundRequest.ticket
          ⟨List.replicate 48 0⟩ reply) := by
  have commitment : boundRequest.authorizationCommitment boundState.library.shake256 =
      List.replicate 48 0 := rfl
  rw [ActumVerifier.verify, commitment]
  exact if_neg (by decide +kernel)

theorem readReply_bound : localVerifier.readReply boundState.library boundRequest.ticket
    ⟨List.replicate 48 0⟩ (.response 200 (.ok [])) = .ok ⟨.c256, 1 :: List.replicate 31 0⟩ := by
  have commitment : Base64.decode (Base64.encode (List.replicate 48 0)) =
      some (List.replicate 48 0) := Base64.decode_encode _
  have authorization : Base64.decode (Base64.encode [1]) = some [1] := Base64.decode_encode _
  rw [ActumVerifier.readReply, if_neg (by decide), if_neg (by decide)]
  change ActumVerifier.acceptResponse _ _ _ _ = _
  simp only [ActumVerifier.acceptResponse, commitment, authorization]
  rfl

/-- The envelope is opened, the service authorizes its ticket, and the provider is called. -/
theorem provider_gated_local : ∃ events url bearer body,
    Program.Makes (localVerifier.infer boundState paidEnvelope) events
        (.gateway (.post url bearer body)) ∧
      ∃ req, Gated localVerifier boundState paidEnvelope events req ∧
        Call.post url bearer body = providerCall boundState req := by
  have opened : openRequestAtGateway boundState.primitives boundState.aead boundState.keypair
      paidEnvelope = .ok [1] := openRequest_paid .null
  have isInfer : infer boundState paidEnvelope =
      inferCanonical boundState paidEnvelope boundRequest := by
    rw [infer, opened]
    rfl
  have checked : checkRequest paidEnvelope boundRequest = .ok () := by rfl
  have makes : Program.Makes (localVerifier.infer boundState paidEnvelope)
      [⟨.service localVerifier.endpoint localVerifier.bearerToken
          (localVerifier.verifyRequest boundRequest.ticket ⟨List.replicate 48 0⟩),
        .response 200 (.ok [])⟩,
        ⟨.gateway .now, 100⟩,
        ⟨.gateway (.compareAndSwap (1 :: List.replicate 31 0) none
          (some (encodeNullifierValue pendingStatus 100))), .ok true⟩,
        ⟨.gateway .flush, .ok ()⟩] (.gateway (providerCall boundState boundRequest)) := by
    rw [ActumVerifier.infer, isInfer, inferCanonical, inferResult, checked]
    change Program.Makes ((localVerifier.verify boundState.library boundRequest.ticket
      ⟨boundRequest.authorizationCommitment boundState.library.shake256⟩).bind _) _ _
    rw [verify_bound]
    apply Program.Makes.later
    change Program.Makes (Program.bind (.done (localVerifier.readReply _ _ _ _)) _) _ _
    rw [readReply_bound]
    apply Program.Makes.later
    apply Program.Makes.later
    apply Program.Makes.later
    exact .now
  exact ⟨_, _, _, _, makes, (provider_gated localVerifier boundState
    (fun bytes => by simp [boundState]) paidEnvelope).1 _ _ _ _ makes⟩

end ZkLlmGateway.Gateway
