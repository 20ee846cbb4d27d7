import ZkLlmGateway.Client.Agent
import ZkLlmGateway.Client.Tickets
import ZkLlmGateway.Common.Decoding
import ZkLlmGateway.Common.Sealing
import ZkLlmGateway.Gateway.Payment

/-!
# Sending a message

With its prompt built, a call of an agent takes a ticket, seals the request,
posts it and reads the reply.  The agents of a client share one ticket source;
between the post and the reply of a call anything may happen to the gateway and
to the source.  A ticket that is taken never goes back, whatever the reply.
-/

namespace ZkLlmGateway.Client

open ZkLlmGateway.Encoding ZkLlmGateway.Common ZkLlmGateway.Gateway ZkLlmGateway.Transition

/-! ## A call of an agent -/

/-- Library functions that read a reply and show what cannot be read. -/
structure ReplyLibrary where
  readEnvelope : Bytes → Option Envelope
  readPayload : Bytes → Option GatewayEnvelopePayload
  displayStatus : Nat → Text
  fromUtf8Lossy : Bytes → Text

/-- The random bytes a call draws. -/
structure SendRandomness where
  requestId : Uuid
  ephSecret : Block 32
  clientNonce : Block 32
  nonce : Block 12

inductive SendError
  | ticket (error : TicketError)
  | encryptRequest
  | sendRequest
  | readResponse
  | http (status body : Text)
  | parseResponseEnvelope
  | decryptResponse
  | parsePayload
  | responseIdMismatch
  | errorIdMismatch
  | gateway (code message : Text)
  deriving DecidableEq

/-- The message of the error, without its causes. -/
def SendError.message : SendError → Text
  | ticket error => error.message
  | encryptRequest => text "encrypt request"
  | sendRequest => text "send request"
  | readResponse => text "read response"
  | http status body => text "HTTP " ++ status ++ text ": " ++ body
  | parseResponseEnvelope => text "parse response envelope"
  | decryptResponse => text "decrypt response"
  | parsePayload => text "parse payload"
  | responseIdMismatch => text "gateway response request_id mismatch"
  | errorIdMismatch => text "gateway error request_id mismatch"
  | gateway code message => text "gateway error: " ++ code ++ text " - " ++ message

/-- A request on its way. -/
structure Posted where
  endpointUrl : Text
  envelope : Envelope
  request : InferenceRequest
  context : ClientCryptoContext

namespace AgentRuntime

/-- The request before it has a ticket. -/
def requestFor (agent : AgentRuntime) (requestId : Uuid) (remoteMessages : List ChatMessage) :
    InferenceRequest where
  requestId := requestId
  model := agent.model
  messages := remoteMessages
  maxTokens := none
  temperature := none
  stream := none
  tokenClass := agent.tokenClass
  ticket := {
    commitmentRoot := []
    nullifier := []
    tokenClass := agent.tokenClass
    proof := [] }
  providerOptions := []

/-- `send_user_message` from the built prompt to the post. -/
def postRequest (state : AppState) (agent : AgentRuntime) (random : SendRandomness)
    (remoteMessages : List ChatMessage) (source : FileTicketSource) (write : FileWrite) :
    Except SendError Posted × FileTicketSource :=
  let req := agent.requestFor random.requestId remoteMessages
  match source.nextTicket agent.tokenClass (req.authorizationCommitment state.library.shake256)
      write with
  | (.error e, source) => (.error (.ticket e), source)
  | (.ok ticket, source) =>
      let req := { req with ticket := ticket }
      match sealRequestForGateway state.primitives state.aead random.ephSecret random.clientNonce
          random.nonce agent.gatewayPublicBytes agent.tokenClass req.requestId
          (utf8 req.toJson.render) with
      | .error _ => (.error .encryptRequest, source)
      | .ok (env, context) => (.ok ⟨agent.endpointUrl, env, req, context⟩, source)

/-- `send_user_message` from the reply on; `order` is the order of the placeholders. -/
def receiveResponse (library : ReplyLibrary) (state : AppState) (agent : AgentRuntime)
    (posted : Posted) (order : List Text) : HttpAnswer → Except SendError Text
  | .sendFailed => .error .sendRequest
  | .readFailed _ => .error .readResponse
  | .response status bytes =>
      if !isSuccess status then
        .error (.http (library.displayStatus status) (library.fromUtf8Lossy bytes))
      else
        match library.readEnvelope bytes with
        | none => .error .parseResponseEnvelope
        | some respEnv =>
            match openResponse state.primitives state.aead posted.context respEnv with
            | .error _ => .error .decryptResponse
            | .ok plaintext =>
                match library.readPayload plaintext with
                | none => .error .parsePayload
                | some (.ok response) =>
                    if response.requestId ≠ posted.request.requestId then
                      .error .responseIdMismatch
                    else .ok (agent.redactor.rehydrate order response.output)
                | some (.err error) =>
                    if ∃ responseRequestId ∈ error.requestId,
                        responseRequestId ≠ posted.request.requestId then
                      .error .errorIdMismatch
                    else .error (.gateway error.code error.message)

end AgentRuntime

/-- A reply that holds a response to the request. -/
def Delivers (library : ReplyLibrary) (state : AppState) (posted : Posted) (answer : HttpAnswer) :
    Prop :=
  ∃ status bytes respEnv plaintext response, answer = .response status bytes ∧
    isSuccess status = true ∧ library.readEnvelope bytes = some respEnv ∧
    openResponse state.primitives state.aead posted.context respEnv = .ok plaintext ∧
    library.readPayload plaintext = some (.ok response) ∧
    response.requestId = posted.request.requestId

/-- A call succeeds exactly when it is sent a response. -/
theorem receiveResponse_isOk_iff {library : ReplyLibrary} {state : AppState} {posted : Posted}
    {answer : HttpAnswer} (agent : AgentRuntime) (order : List Text) :
    (∃ output, agent.receiveResponse library state posted order answer = .ok output) ↔
      Delivers library state posted answer := by
  constructor
  · rintro ⟨output, isOk⟩
    cases answer with
    | sendFailed => contradiction
    | readFailed status => contradiction
    | response status bytes =>
        rw [AgentRuntime.receiveResponse] at isOk
        split at isOk
        next => contradiction
        next success =>
          split at isOk
          next => contradiction
          next respEnv isEnvelope =>
            split at isOk
            next => contradiction
            next plaintext opened =>
              split at isOk
              next => contradiction
              next response isResponse =>
                split at isOk
                next => contradiction
                next sameId =>
                  exact ⟨status, bytes, respEnv, plaintext, response, rfl, by simpa using success,
                    isEnvelope, opened, isResponse, Decidable.not_not.mp sameId⟩
              next =>
                split at isOk <;> contradiction
  · rintro ⟨status, bytes, respEnv, plaintext, response, rfl, success, isEnvelope, opened,
      isResponse, sameId⟩
    refine ⟨agent.redactor.rehydrate order response.output, ?_⟩
    simp only [AgentRuntime.receiveResponse, success, isEnvelope, opened, isResponse, sameId,
      Bool.not_true, Bool.false_eq_true, if_false, ne_eq, not_true_eq_false]

/-! ## A client and the gateway -/

/-- A call that waits for its reply.  `owed` is history: the tickets that were in the
source before the call, less those that other calls have taken since. -/
structure PendingCall where
  agent : AgentRuntime
  posted : Posted
  owed : List ZkTicket

/-- Another call takes a ticket. -/
def PendingCall.cede (taken : Option ZkTicket) (pending : PendingCall) : PendingCall :=
  { pending with owed := taken.elim pending.owed pending.owed.erase }

/-- A call that has returned. -/
structure ReturnedCall where
  owed : List ZkTicket
  outcome : Except SendError Text

/-- The calls of the agents, one of each at most, over one ticket source; `returned` is
the call that the last step ended. -/
structure ClientState where
  source : FileTicketSource
  calls : Nat → Option PendingCall
  world : World
  returned : Option ReturnedCall

/-- How an agent calls, from its built prompt on. -/
structure SendCall where
  agent : AgentRuntime
  random : SendRandomness
  remoteMessages : List ChatMessage
  write : FileWrite

inductive ClientEvent
  | send (id : Nat) (call : SendCall)
  | receive (id : Nat) (order : List Text) (answer : HttpAnswer)
  | gateway (event : WorldEvent)

/-- The ticket that is taken out, and what is left. -/
def FileTicketSource.take (source : FileTicketSource) (tokenClass : TokenClass) :
    Option (ZkTicket × List ZkTicket) :=
  (selectIdx source.tickets tokenClass).bind (remove source.tickets)

namespace ClientState

variable (library : ReplyLibrary) (state : AppState)

/-- The start of a call; one that fails returns. -/
def send (client : ClientState) (id : Nat) (call : SendCall) : ClientState :=
  let others := fun other => (client.calls other).map
    (PendingCall.cede ((client.source.take call.agent.tokenClass).map Prod.fst))
  match call.agent.postRequest state call.random call.remoteMessages client.source call.write with
  | (.error e, source) => { client with
      source := source
      calls := others
      returned := some ⟨client.source.tickets, .error e⟩ }
  | (.ok posted, source) => { client with
      source := source
      calls := Function.update others id (some ⟨call.agent, posted, client.source.tickets⟩)
      returned := none }

def step (client : ClientState) : ClientEvent → Option ClientState
  | .send id call =>
      if (client.calls id).isNone then some (client.send state id call) else none
  | .receive id order answer =>
      (client.calls id).map fun pending => { client with
        calls := Function.update client.calls id none
        returned := some ⟨pending.owed,
          pending.agent.receiveResponse library state pending.posted order answer⟩ }
  | .gateway event =>
      (World.step state client.world event).map fun world =>
        { client with world := world, returned := none }

/-- Runs start with a source that has just been loaded. -/
def system (initial : Store → Prop) : System ClientState ClientEvent where
  init client := FileTicketSource.load client.source.file = some client.source ∧
    (∀ id, client.calls id = none) ∧ (World.system state initial).init client.world ∧
    client.returned = none
  step := ClientState.step library state

/-- The ticket file can be written. -/
def WritesFile (_ : ClientState) : ClientEvent → Prop
  | .send _ call => call.write = .written
  | _ => True

/-- If the call failed, the tickets it found are all in memory and in the file, except
those whose keys are marked spent. -/
def Survive (keyOf : ZkTicket → Bytes) (client : ClientState) (returned : ReturnedCall) : Prop :=
  ∀ problem, returned.outcome = .error problem →
    ∀ ticket ∈ returned.owed, ¬client.world.Spent (keyOf ticket) →
      ticket ∈ client.source.tickets ∧
        ∃ tickets, client.source.file = some tickets ∧ ticket ∈ tickets

/-- The ticket of the call is spent or there is another copy of it, or the call is sent a
response. -/
def Spares (keyOf : ZkTicket → Bytes) (client : ClientState) : ClientEvent → Prop
  | .send _ call => ∀ ticket rest,
      client.source.take call.agent.tokenClass = some (ticket, rest) →
        client.world.Spent (keyOf ticket) ∨ ticket ∈ rest
  | .receive id _ answer => ∀ pending, client.calls id = some pending →
      Delivers library state pending.posted answer ∨
        client.world.Spent (keyOf pending.posted.request.ticket) ∨
        pending.posted.request.ticket ∈ client.source.tickets
  | .gateway _ => True

end ClientState

/-! ## What a call does to the source -/

section Source

variable {state : AppState} {agent : AgentRuntime} {random : SendRandomness}
  {remoteMessages : List ChatMessage} {source : FileTicketSource}

theorem FileTicketSource.perm_of_take {tokenClass : TokenClass} {ticket : ZkTicket}
    {rest : List ZkTicket} (taken : source.take tokenClass = some (ticket, rest)) :
    source.tickets.Perm (ticket :: rest) := by
  rcases source.selected_cases tokenClass with ⟨_, none⟩ | ⟨i, first, shown, some, _⟩
  · rw [take, none] at taken
    contradiction
  · rw [take, some] at taken
    cases taken
    obtain ⟨inside, isTicket⟩ := List.getElem?_eq_some_iff.mp shown
    rw [← isTicket]
    exact (List.getElem_cons_eraseIdx_perm inside).symm

theorem FileTicketSource.take_eq_none_iff {tokenClass : TokenClass} :
    source.take tokenClass = none ↔ source.tickets = [] := by
  rcases source.selected_cases tokenClass with ⟨isEmpty, none⟩ | ⟨i, first, shown, some, _⟩
  · exact iff_of_true none isEmpty
  · apply iff_of_false (by rw [take, some]; exact Option.some_ne_none _)
    rintro isEmpty
    rw [isEmpty] at shown
    contradiction

/-- A post takes no ticket out of an empty list; or it takes one, which is of no use or goes
with the request. -/
theorem postRequest_cases (state : AppState) (agent : AgentRuntime) (random : SendRandomness)
    (remoteMessages : List ChatMessage) (source : FileTicketSource) (write : FileWrite) :
    (source.take agent.tokenClass = none ∧
      agent.postRequest state random remoteMessages source write =
        (.error (.ticket .empty), source)) ∨
    ∃ ticket rest, source.take agent.tokenClass = some (ticket, rest) ∧
      (agent.postRequest state random remoteMessages source write =
          (.error (.ticket .notBound), { source with tickets := rest }) ∨
        agent.postRequest state random remoteMessages source write =
          (.error .encryptRequest, { source with tickets := rest }.persist write) ∨
        ∃ posted, posted.request.ticket = ticket ∧
          agent.postRequest state random remoteMessages source write =
            (.ok posted, { source with tickets := rest }.persist write)) := by
  cases taken : source.take agent.tokenClass with
  | none =>
      refine .inl ⟨rfl, ?_⟩
      rw [AgentRuntime.postRequest, FileTicketSource.nextTicket_of_none taken]
  | some pair =>
      obtain ⟨ticket, rest⟩ := pair
      refine .inr ⟨ticket, rest, rfl, ?_⟩
      by_cases bound : ticket.commitmentRoot =
          (agent.requestFor random.requestId remoteMessages).authorizationCommitment
            state.library.shake256
      · refine .inr ?_
        rw [AgentRuntime.postRequest, FileTicketSource.nextTicket_of_bound taken bound]
        simp only
        split
        next => exact .inl rfl
        next => exact .inr ⟨_, rfl, rfl⟩
      · refine .inl ?_
        rw [AgentRuntime.postRequest, FileTicketSource.nextTicket_of_unbound taken bound]

/-- The post of a request that is sealed with its ticket. -/
theorem postRequest_of_seal {ticket : ZkTicket} {rest : List ZkTicket} {env : Envelope}
    {context : ClientCryptoContext}
    (taken : source.take agent.tokenClass = some (ticket, rest))
    (bound : ticket.commitmentRoot = (agent.requestFor random.requestId
      remoteMessages).authorizationCommitment state.library.shake256)
    (isSealed : sealRequestForGateway state.primitives state.aead random.ephSecret
      random.clientNonce random.nonce agent.gatewayPublicBytes agent.tokenClass random.requestId
      (utf8 ({ agent.requestFor random.requestId remoteMessages with
        ticket := ticket } : InferenceRequest).toJson.render) = .ok (env, context))
    (write : FileWrite) :
    agent.postRequest state random remoteMessages source write =
      (.ok ⟨agent.endpointUrl, env, { agent.requestFor random.requestId remoteMessages with
        ticket := ticket }, context⟩, { source with tickets := rest }.persist write) := by
  rw [AgentRuntime.postRequest, FileTicketSource.nextTicket_of_bound taken bound]
  simp only [AgentRuntime.requestFor] at isSealed ⊢
  rw [isSealed]

/-- What is in memory is in the file. -/
def FileTicketSource.Filed (source : FileTicketSource) : Prop :=
  ∃ tickets, source.file = some tickets ∧ source.tickets ⊆ tickets

theorem FileTicketSource.Filed.of_take {source : FileTicketSource} (filed : source.Filed)
    {tokenClass : TokenClass} {ticket : ZkTicket} {rest : List ZkTicket}
    (taken : source.take tokenClass = some (ticket, rest)) :
    FileTicketSource.Filed { source with tickets := rest } := by
  obtain ⟨tickets, isFile, within⟩ := filed
  exact ⟨tickets, isFile, fun other member =>
    within ((perm_of_take taken).mem_iff.mpr (List.mem_cons_of_mem _ member))⟩

theorem FileTicketSource.filed_persist_written (source : FileTicketSource) :
    (source.persist .written).Filed :=
  ⟨source.tickets, rfl, List.Subset.refl _⟩

end Source

namespace ClientState

section Steps

variable {library : ReplyLibrary} {state : AppState} {keyOf : ZkTicket → Bytes}
  {client : ClientState} {id : Nat} {call : SendCall}

/-- The calls in progress after one has taken a ticket. -/
def others (client : ClientState) (taken : Option ZkTicket) (other : Nat) : Option PendingCall :=
  (client.calls other).map (PendingCall.cede taken)

theorem send_of_post {ticket : ZkTicket} {rest : List ZkTicket} {posted : Posted}
    {source : FileTicketSource}
    (taken : client.source.take call.agent.tokenClass = some (ticket, rest))
    (posts : call.agent.postRequest state call.random call.remoteMessages client.source
      call.write = (.ok posted, source)) :
    client.send state id call = {
      source := source
      calls := Function.update (client.others (some ticket)) id
        (some ⟨call.agent, posted, client.source.tickets⟩)
      world := client.world
      returned := none } := by
  rw [send, posts, taken]
  rfl

/-- What the start of a call does, if the ticket file can be written. -/
theorem send_cases (written : call.write = .written) (filed : client.source.Filed) :
    (client.source.take call.agent.tokenClass = none ∧
      client.send state id call = { client with
        calls := client.others none
        returned := some ⟨client.source.tickets, .error (.ticket .empty)⟩ }) ∨
    ∃ ticket rest source, client.source.take call.agent.tokenClass = some (ticket, rest) ∧
      source.tickets = rest ∧ source.Filed ∧
      ((∃ problem, client.send state id call = {
          source := source
          calls := client.others (some ticket)
          world := client.world
          returned := some ⟨client.source.tickets, .error problem⟩ }) ∨
        ∃ posted, posted.request.ticket = ticket ∧ client.send state id call = {
          source := source
          calls := Function.update (client.others (some ticket)) id
            (some ⟨call.agent, posted, client.source.tickets⟩)
          world := client.world
          returned := none }) := by
  rcases postRequest_cases state call.agent call.random call.remoteMessages client.source
    call.write with ⟨none, failed⟩ | ⟨ticket, rest, taken, failed | failed | ⟨posted, ours, isOk⟩⟩
  · refine .inl ⟨none, ?_⟩
    rw [send, failed, none]
    rfl
  · refine .inr ⟨ticket, rest, _, taken, rfl, filed.of_take taken, .inl ⟨.ticket .notBound, ?_⟩⟩
    rw [send, failed, taken]
    rfl
  · rw [written] at failed
    refine .inr ⟨ticket, rest, { client.source with tickets := rest }.persist .written, taken, rfl,
      FileTicketSource.filed_persist_written _, .inl ⟨.encryptRequest, ?_⟩⟩
    rw [send, written, failed, taken]
    rfl
  · rw [written] at isOk
    refine .inr ⟨ticket, rest, { client.source with tickets := rest }.persist .written, taken, rfl,
      FileTicketSource.filed_persist_written _, .inr ⟨posted, ours, ?_⟩⟩
    rw [send, written, isOk, taken]
    rfl

/-- Every call in progress is owed its own ticket and what is in memory. -/
structure Accounts (client : ClientState) : Prop where
  owed : ∀ id pending, client.calls id = some pending →
    pending.owed.Perm (pending.posted.request.ticket :: client.source.tickets)
  filed : client.source.Filed

/-- A ticket another call takes is no longer owed. -/
theorem Accounts.perm_of_others (accounts : client.Accounts) {tokenClass : TokenClass}
    {ticket : ZkTicket} {rest : List ZkTicket}
    (taken : client.source.take tokenClass = some (ticket, rest)) {other : Nat}
    {pending : PendingCall} (found : client.others (some ticket) other = some pending) :
    pending.owed.Perm (pending.posted.request.ticket :: rest) := by
  obtain ⟨before, isBefore, rfl⟩ := Option.map_eq_some_iff.mp found
  calc
    (before.owed.erase ticket).Perm
        ((ticket :: before.posted.request.ticket :: rest).erase ticket) :=
      ((accounts.owed other before isBefore).trans
        (((FileTicketSource.perm_of_take taken).cons _).trans (List.Perm.swap _ _ _))).erase ticket
    _ = before.posted.request.ticket :: rest := List.erase_cons_head ..

theorem Accounts.step (accounts : client.Accounts) {event : ClientEvent} {target : ClientState}
    (writes : client.WritesFile event) (stepped : client.step library state event = some target) :
    target.Accounts := by
  cases event with
  | send id call =>
      obtain ⟨_, ⟨⟩⟩ := Option.ite_none_right_eq_some.mp stepped
      rcases send_cases writes accounts.filed with
        ⟨none, after⟩ | ⟨ticket, rest, source, taken, rfl, filed, ⟨problem, after⟩ |
          ⟨posted, rfl, after⟩⟩ <;>
        rw [after]
      · refine ⟨fun other pending found => ?_, accounts.filed⟩
        obtain ⟨before, isBefore, rfl⟩ := Option.map_eq_some_iff.mp found
        exact accounts.owed other before isBefore
      · exact ⟨fun other pending found => accounts.perm_of_others taken found, filed⟩
      · refine ⟨fun other pending found => ?_, filed⟩
        simp only [Function.update_apply] at found
        split at found
        next =>
          cases found
          exact FileTicketSource.perm_of_take taken
        next => exact accounts.perm_of_others taken found
  | receive id order answer =>
      obtain ⟨pending, isPending, rfl⟩ := Option.map_eq_some_iff.mp stepped
      refine ⟨fun other before found => ?_, accounts.filed⟩
      simp only [Function.update_apply] at found
      split at found
      next => contradiction
      next => exact accounts.owed other before found
  | gateway event =>
      obtain ⟨world, _, rfl⟩ := Option.map_eq_some_iff.mp stepped
      exact ⟨accounts.owed, accounts.filed⟩

theorem accounts_of_reachable {initial : Store → Prop}
    (reachable : (system library state initial).Reachable WritesFile client) :
    client.Accounts := by
  refine reachable.invariant ?_ fun _ _ _ accounts writes stepped => accounts.step writes stepped
  rintro start ⟨loaded, idle, _⟩
  refine ⟨fun id pending found => ?_, ?_⟩
  · rw [idle id] at found
    contradiction
  · obtain ⟨tickets, isFile, same⟩ := Option.map_eq_some_iff.mp loaded
    refine ⟨tickets, isFile, ?_⟩
    rw [← same]
    exact List.Subset.refl _

/-- With its own ticket back, a call has lost nothing. -/
theorem survive_iff_of_perm {target : ClientState} (filed : target.source.Filed)
    {ticket : ZkTicket} {owed : List ZkTicket} {problem : SendError}
    (owes : owed.Perm (ticket :: target.source.tickets)) :
    target.Survive keyOf ⟨owed, .error problem⟩ ↔
      target.world.Spent (keyOf ticket) ∨ ticket ∈ target.source.tickets := by
  obtain ⟨tickets, isFile, within⟩ := filed
  constructor
  · intro survive
    rw [or_iff_not_imp_left]
    intro unspent
    exact (survive problem rfl ticket (owes.mem_iff.mpr List.mem_cons_self) unspent).1
  · intro spared _ _ other isOwed unspent
    have remains : other ∈ target.source.tickets := by
      rcases List.mem_cons.mp (owes.mem_iff.mp isOwed) with rfl | remains
      · exact spared.resolve_left unspent
      · exact remains
    exact ⟨remains, tickets, isFile, within remains⟩

/-- **Tickets survive a failed call** if and only if its own ticket is spent or there is
another copy of it: in every run, a ticket that was taken never goes back. -/
theorem survive_iff_spares {initial : Store → Prop} {event : ClientEvent} {target : ClientState}
    {returned : ReturnedCall}
    (reachable : (system library state initial).Reachable WritesFile client)
    (writes : client.WritesFile event)
    (stepped : (system library state initial).step client event = some target)
    (returns : target.returned = some returned) :
    target.Survive keyOf returned ↔ client.Spares library state keyOf event := by
  have accounts := accounts_of_reachable reachable
  cases event with
  | send id call =>
      obtain ⟨_, ⟨⟩⟩ := Option.ite_none_right_eq_some.mp stepped
      rw [Spares]
      rcases send_cases writes accounts.filed with
        ⟨none, after⟩ | ⟨ticket, rest, source, taken, rfl, filed, ⟨problem, after⟩ |
          ⟨posted, rfl, after⟩⟩ <;>
        rw [after] at returns ⊢
      · cases returns
        refine iff_of_true ?_ fun ticket rest taken => ?_
        · intro _ _ ticket member
          rw [FileTicketSource.take_eq_none_iff.mp none] at member
          contradiction
        · rw [none] at taken
          contradiction
      · cases returns
        rw [survive_iff_of_perm filed (FileTicketSource.perm_of_take taken), taken]
        constructor
        · rintro spared _ _ ⟨⟩
          exact spared
        · intro spared
          exact spared ticket source.tickets rfl
      · contradiction
  | receive id order answer =>
      obtain ⟨pending, isPending, rfl⟩ := Option.map_eq_some_iff.mp stepped
      cases returns
      rw [Spares]
      have only : ∀ {holds : PendingCall → Prop}, (∀ other, client.calls id = some other →
          holds other) ↔ holds pending := by
        intro holds
        rw [isPending]
        exact ⟨fun all => all pending rfl, fun one other same => by cases same; exact one⟩
      rw [only, ← receiveResponse_isOk_iff pending.agent order]
      cases outcome : pending.agent.receiveResponse library state pending.posted order answer with
      | ok output =>
          refine iff_of_true ?_ (.inl ⟨output, rfl⟩)
          intro problem failed
          contradiction
      | error problem =>
          refine Iff.trans (survive_iff_of_perm ?_ (accounts.owed id pending isPending)) ?_
          · exact accounts.filed
          · simp
  | gateway event =>
      obtain ⟨world, _, rfl⟩ := Option.map_eq_some_iff.mp stepped
      contradiction

end Steps

/-! ## A lost ticket -/

/-- Replies that cannot be read. -/
def plainReplies : ReplyLibrary where
  readEnvelope _ := none
  readPayload _ := none
  displayStatus := decimal
  fromUtf8Lossy _ := []

def plainAgent : AgentRuntime where
  endpointUrl := text "http://localhost:8080/v1/infer"
  gatewayPublicBytes := Block.replicate 32 1
  model := text "m"
  tokenClass := .c256
  redactMode := .basic
  extraTerms := []
  sessionPath := []
  session := .new [] 0 (Block.replicate 32 0)
  redactor := ⟨Block.replicate 32 0, [], .new []⟩

def plainCall : SendCall where
  agent := plainAgent
  random := ⟨Block.replicate 16 0, Block.replicate 32 0, Block.replicate 32 0, Block.replicate 12 0⟩
  remoteMessages := []
  write := .written

/-- The only ticket, for that call. -/
def soleTicket : ZkTicket :=
  ⟨(Block.replicate 48 0).val, [7], .c256, []⟩

/-- A client that has loaded these tickets. -/
def loadedClient (tickets : List ZkTicket) : ClientState where
  source := ⟨some tickets, tickets⟩
  calls _ := none
  world := emptyWorld
  returned := none

theorem reachable_loaded (tickets : List ZkTicket) :
    (system plainReplies plainState fun _ => True).Reachable WritesFile (loadedClient tickets) :=
  .start ⟨rfl, fun _ => rfl, ⟨trivial, fun _ => rfl⟩, rfl⟩

theorem not_spent_emptyWorld (key : Bytes) : ¬emptyWorld.Spent key := by
  rintro ⟨_, stored⟩
  contradiction

def soleRequest : InferenceRequest :=
  { plainAgent.requestFor plainCall.random.requestId [] with ticket := soleTicket }

/-- The call takes the only ticket along. -/
theorem exists_posted : ∃ posted, (loadedClient [soleTicket]).send plainState 0 plainCall = {
    source := ⟨some [], []⟩
    calls := Function.update (fun _ => none) 0 (some ⟨plainAgent, posted, [soleTicket]⟩)
    world := emptyWorld
    returned := none } := by
  have fits : (utf8 soleRequest.toJson.render).length ≤
      TokenClass.c256.envelopeRequestPlaintextBytes := by decide +kernel
  have contributory : Contributory (plainState.primitives.diffieHellman
      plainCall.random.ephSecret plainAgent.gatewayPublicBytes) := rfl
  obtain ⟨⟨env, context⟩, isSealed⟩ : ∃ result, sealRequestForGateway plainState.primitives
      plainState.aead plainCall.random.ephSecret plainCall.random.clientNonce
      plainCall.random.nonce plainAgent.gatewayPublicBytes plainAgent.tokenClass
      plainCall.random.requestId (utf8 soleRequest.toJson.render) = .ok result :=
    (sealRequestForGateway_isOk_iff correct_transparent contributory _ _ _ _).mpr fits
  have taken : (loadedClient [soleTicket]).source.take plainAgent.tokenClass =
      some (soleTicket, []) := rfl
  exact ⟨_, send_of_post taken (postRequest_of_seal taken rfl isSealed .written)⟩

/-- The client with the only ticket has sent that call. -/
theorem reachable_sent : (system plainReplies plainState fun _ => True).Reachable WritesFile
    ((loadedClient [soleTicket]).send plainState 0 plainCall) := by
  have writes : (loadedClient [soleTicket]).WritesFile (.send 0 plainCall) := rfl
  exact .next (reachable_loaded [soleTicket]) writes rfl

/-- The only ticket is in flight when the relay cannot be reached. -/
theorem survive_iff_spares_sendFailed : ∃ client target returned,
    (system plainReplies plainState fun _ => True).step client (.receive 0 [] .sendFailed) =
        some target ∧
      target.returned = some returned ∧ returned.owed = [soleTicket] ∧
      (target.Survive ZkTicket.nullifier returned ↔
        client.Spares plainReplies plainState ZkTicket.nullifier (.receive 0 [] .sendFailed)) := by
  obtain ⟨posted, sent⟩ := exists_posted
  have reachable := reachable_sent
  rw [sent] at reachable
  exact ⟨_, _, _, rfl, rfl, rfl, survive_iff_spares reachable trivial rfl rfl⟩

/-- The relay cannot be reached, and the ticket is gone. -/
theorem not_survive_sendFailed : ¬∀ (library : ReplyLibrary) (state : AppState)
    (initial : Store → Prop) (keyOf : ZkTicket → Bytes) (client target : ClientState)
    (event : ClientEvent) (returned : ReturnedCall),
    (system library state initial).Reachable WritesFile client → client.WritesFile event →
    (system library state initial).step client event = some target →
    target.returned = some returned → target.Survive keyOf returned := by
  intro always
  obtain ⟨posted, sent⟩ := exists_posted
  have reachable := reachable_sent
  rw [sent] at reachable
  have survive := always plainReplies plainState (fun _ => True) ZkTicket.nullifier _ _
    (.receive 0 [] .sendFailed) _ reachable trivial rfl rfl
  have kept := (survive .sendRequest rfl soleTicket List.mem_cons_self
    (not_spent_emptyWorld _)).1
  exact List.not_mem_nil kept

end ClientState

end ZkLlmGateway.Client
