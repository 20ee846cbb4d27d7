import ZkLlmGateway.Gateway.Startup
import ZkLlmGateway.Gateway.Endpoint
import ZkLlmGateway.Gateway.Payment

/-!
# The routes of the gateway

A started gateway reads the clock, touches its store and calls the provider for a ticket
only after its verifier has accepted the ticket.  The routes that pass requests through to
the provider need no ticket, whatever the verifier is.
-/

namespace ZkLlmGateway.Gateway

open ZkLlmGateway.Encoding ZkLlmGateway.Common ZkLlmGateway.Interaction

/-! ## Requests -/

inductive Method
  | get
  | head
  | post
  | other
  deriving DecidableEq

structure HttpRequest where
  method : Method
  path : Text
  contentType : Option Bytes
  body : Bytes

/-- Calls of the gateway, with those that are passed through to the provider. -/
inductive RouterCall
  | inner (query : ServiceCall)
  | proxy (method : Method) (url : Text) (bearer : Option Text) (body : Option Json)

@[reducible]
def RouterAnswer : RouterCall → Type
  | .inner query => ServiceAnswer query
  | .proxy _ _ _ _ => HttpAnswer

/-- A handler of a route. -/
abbrev Route :=
  Program RouterCall RouterAnswer HttpReply

/-- What the HTTP library does with headers and bodies, and with requests that have no route. -/
structure Web where
  server : Server
  jsonContentType : Bytes → Bool
  rejectionText : HttpRequest → Bytes
  fromUtf8Lossy : Bytes → Text
  refusal : HttpRequest → HttpReply

/-- The request declares that its body is JSON. -/
def Web.SaysJson (web : Web) (request : HttpRequest) : Prop :=
  request.contentType.any web.jsonContentType = true

instance (web : Web) (request : HttpRequest) : Decidable (web.SaysJson request) :=
  inferInstanceAs (Decidable (_ = true))

/-- The extractor `Json<Value>` -/
def Web.extractValue (web : Web) (library : Library) (request : HttpRequest) :
    Except HttpReply Json :=
  if web.SaysJson request then
    if request.body.length ≤ bodyLimit then
      match library.readJson request.body with
      | none => .error ⟨400, web.rejectionText request⟩
      | some value => .ok value
    else .error ⟨413, web.rejectionText request⟩
  else .error ⟨415, web.rejectionText request⟩

theorem Web.extractValue_eq_ok_iff {web : Web} {library : Library} {request : HttpRequest}
    {value : Json} :
    web.extractValue library request = .ok value ↔
      web.SaysJson request ∧ request.body.length ≤ bodyLimit ∧
        library.readJson request.body = some value := by
  rw [extractValue]
  split
  next saysJson =>
    split
    next short => cases library.readJson request.body <;> simp [saysJson, short]
    next long => simp [long]
  next silent => simp [silent]

/-! ## Passing through -/

def providerUrl (base path : Text) : Text :=
  base.rdropWhile (· == '/') ++ '/' :: path.dropWhile (· == '/')

def badGateway (message : Text) : HttpReply where
  status := 502
  body := utf8 (Json.object [(text "error", .object [
    (text "code", .string (text "upstream_unreachable")),
    (text "message", .string message)])]).render

/-- What is made of the provider's answer. -/
def readProxied (web : Web) (library : Library) : HttpAnswer → HttpReply
  | .sendFailed => badGateway (text "upstream network error")
  | .readFailed _ => badGateway (text "upstream read error")
  | .response status bytes =>
      match library.readJson bytes with
      | some value => ⟨status, utf8 value.render⟩
      | none => ⟨status,
          utf8 (Json.object [(text "raw", .string (web.fromUtf8Lossy bytes))]).render⟩

def compatProxy (web : Web) (state : AppState) (method : Method) (path : Text)
    (body : Option Json) : Route :=
  .call (.proxy method (providerUrl state.providerBaseUrl path) state.providerApiKey body)
    fun answer => .done (readProxied web state.library answer)

/-! ## Routes -/

/-- A reply without its body. -/
def HttpReply.bare (reply : HttpReply) : HttpReply :=
  { reply with body := [] }

/-- Calls of the gateway itself. -/
def lift (query : ServiceCall) : Program RouterCall RouterAnswer (ServiceAnswer query) :=
  .call (.inner query) .done

namespace GatewayProcess

variable (gateway : GatewayProcess) (web : Web)

def pubkey : HttpReply where
  status := 200
  body := utf8 (Json.object [(text "public_key_b64", .string (Base64.encode
    (gateway.state.keypair.publicBytes gateway.state.primitives).val))]).render

def compatModels : Route :=
  compatProxy web gateway.state .get (text "/v1/models") none

def compatChatCompletions (request : HttpRequest) : Route :=
  match web.extractValue gateway.state.library request with
  | .error reply => .done reply
  | .ok value => compatProxy web gateway.state .post (text "/v1/chat/completions") (some value)

/-- `POST /v1/infer` with the verifier of the gateway. -/
def inferRoute (request : HttpRequest) : Route :=
  if web.SaysJson request then
    ((web.server.inferEndpoint gateway.state request.body).interpret
      (gateway.verifier.serve gateway.state.library)).interpret lift
  else .done ⟨415, web.rejectionText request⟩

/-- A route for `GET`. -/
def getRoute (request : HttpRequest) (route : Route) : Route :=
  match request.method with
  | .get => route
  | .head => HttpReply.bare <$> route
  | _ => .done (web.refusal request)

def postRoute (request : HttpRequest) (route : Route) : Route :=
  match request.method with
  | .post => route
  | _ => .done (web.refusal request)

/-- The router. -/
def handle (request : HttpRequest) : Route :=
  if request.path = text "/healthz" then getRoute web request (.done ⟨200, utf8 (text "ok")⟩)
  else if request.path = text "/v1/pubkey" then getRoute web request (.done gateway.pubkey)
  else if request.path = text "/v1/models" then getRoute web request (gateway.compatModels web)
  else if request.path = text "/v1/chat/completions" then
    postRoute web request (gateway.compatChatCompletions web request)
  else if request.path = text "/v1/infer" then
    postRoute web request (gateway.inferRoute web request)
  else .done (web.refusal request)

end GatewayProcess

/-! ## Tickets -/

/-- Calls that are made for a ticket. -/
def NeedsTicket : Call → Prop
  | .verify _ _ | .fillNonce => False
  | _ => True

/-- The verifier has accepted the ticket for the request. -/
def Verifier.Vouches (ticket : ZkTicket) (context : VerificationContext)
    (events : List (Program.Event ServiceCall ServiceAnswer)) : Verifier → Prop
  | .dummy => ticket.nullifier ≠ []
  | .halo2 _ => False
  | .actum verifier => ∃ authorizationId, Accepted verifier ticket context events authorizationId

section Vouching

variable {verifier : Verifier} {library : Library} {state : AppState}

theorem vouches_of_runs {ticket : ZkTicket} {context : VerificationContext}
    {events : List (Program.Event ServiceCall ServiceAnswer)} {verified : VerifiedTicket}
    (runs : Program.Runs (verifier.verify library ticket context) events (.ok verified)) :
    verifier.Vouches ticket context events := by
  cases verifier with
  | dummy =>
      rcases Program.runs_done_iff.mp runs with ⟨_, returned⟩
      rw [dummyVerify] at returned
      split at returned
      next => cases returned
      next nonempty =>
        rw [List.isEmpty_iff] at nonempty
        exact nonempty
  | halo2 verifier =>
      rcases Program.runs_done_iff.mp runs with ⟨_, returned⟩
      cases returned
  | actum verifier =>
      rcases accepted_of_runs runs with ⟨authorizationId, accepted, _⟩
      exact ⟨authorizationId, accepted⟩

theorem Verifier.Vouches.append {ticket : ZkTicket} {context : VerificationContext}
    {events : List (Program.Event ServiceCall ServiceAnswer)}
    (vouches : verifier.Vouches ticket context events)
    (later : List (Program.Event ServiceCall ServiceAnswer)) :
    verifier.Vouches ticket context (events ++ later) := by
  cases verifier with
  | dummy => exact vouches
  | halo2 verifier => exact vouches
  | actum verifier =>
      rcases vouches with ⟨authorizationId, accepted⟩
      exact ⟨authorizationId, accepted.append later⟩

/-- What is called for a ticket is called after it was verified. -/
theorem verified_of_makes {env : Envelope} {events : List (Program.Event Call Answer)}
    {next : Call} (makes : Program.Makes (infer state env) events next)
    (needs : NeedsTicket next) :
    ∃ plaintext req verified rest,
      openRequestAtGateway state.primitives state.aead state.keypair env = .ok plaintext ∧
      state.library.readRequest plaintext = .ok req ∧ checkRequest env req = .ok () ∧
      events = ⟨verifyCall state req, .ok verified⟩ :: rest := by
  rw [infer] at makes
  split at makes
  next => exact absurd makes Program.not_makes_done
  next plaintext opened =>
    split at makes
    next => exact absurd makes Program.not_makes_done
    next req read =>
      have inResult : ∀ {events}, Program.Makes (inferResult state env req) events next →
          checkRequest env req = .ok () ∧
            ∃ verified rest, events = ⟨verifyCall state req, .ok verified⟩ :: rest := by
        intro events makes
        rw [inferResult] at makes
        split at makes
        next => exact absurd makes Program.not_makes_done
        next checked =>
          rcases Program.makes_call_iff.mp makes with ⟨_, rfl⟩ | ⟨answer, rest, rfl, later⟩
          · exact needs.elim
          · cases answer with
            | error problem => exact absurd later Program.not_makes_done
            | ok verified => exact ⟨checked, verified, rest, rfl⟩
      rcases Program.makes_bind_iff.mp makes with
        inFirst | ⟨first, second, outcome, rfl, runs, inSeal⟩
      · rcases inResult inFirst with ⟨checked, verified, rest, rfl⟩
        exact ⟨plaintext, req, verified, rest, opened, read, checked, rfl⟩
      · rcases Program.makes_call_iff.mp inSeal with ⟨_, rfl⟩ | ⟨nonce, rest, rfl, afterNonce⟩
        · exact needs.elim
        · simp only [Program.bind_done] at afterNonce
          split at afterNonce <;> exact absurd afterNonce Program.not_makes_done

/-- Only the service is called to verify a ticket. -/
theorem Verifier.makes_serve {query next : Call}
    {events : List (Program.Event ServiceCall ServiceAnswer)}
    (makes : Program.Makes (verifier.serve library query) events (.gateway next)) :
    events = [] ∧ next = query := by
  cases query with
  | verify ticket context =>
      cases verifier with
      | dummy => exact absurd makes Program.not_makes_done
      | halo2 verifier => exact absurd makes Program.not_makes_done
      | actum verifier =>
          exact @Gateway.makes_serve verifier library (.verify ticket context) next events makes
  | _ =>
      rcases Program.makes_call_iff.mp makes with ⟨rfl, same⟩ | ⟨_, _, _, finished⟩
      · exact ⟨rfl, ServiceCall.gateway.inj same⟩
      · exact absurd finished Program.not_makes_done

/-- What the gateway does for a ticket, its verifier has vouched for. -/
theorem vouches_of_makes {server : Server} {body : Bytes} {next : Call}
    {events : List (Program.Event ServiceCall ServiceAnswer)}
    (makes : Program.Makes ((server.inferEndpoint state body).interpret
      (verifier.serve state.library)) events (.gateway next)) (needs : NeedsTicket next) :
    ∃ env plaintext req, server.extract body = .ok env ∧
      openRequestAtGateway state.primitives state.aead state.keypair env = .ok plaintext ∧
      state.library.readRequest plaintext = .ok req ∧ checkRequest env req = .ok () ∧
      verifier.Vouches req.ticket ⟨req.authorizationCommitment state.library.shake256⟩ events := by
  rcases Program.exists_of_makes_interpret makes with
    ⟨outer, query, before, after, rfl, makesOuter, served, inLast⟩
  rcases Verifier.makes_serve inLast with ⟨rfl, rfl⟩
  rw [Server.inferEndpoint] at makesOuter
  split at makesOuter
  next => exact absurd makesOuter Program.not_makes_done
  next env extracted =>
    rcases Program.makes_bind_iff.mp makesOuter with
      inInfer | ⟨_, _, _, _, _, finished⟩
    · rcases verified_of_makes inInfer needs with
        ⟨plaintext, req, verified, rest, opened, read, checked, rfl⟩
      cases served with
      | cons runs later =>
          refine ⟨env, plaintext, req, extracted, opened, read, checked, ?_⟩
          rw [List.append_nil]
          exact (vouches_of_runs runs).append _
    · exact absurd finished Program.not_makes_done

end Vouching

/-! ## The whole gateway -/

def liftEvent : Program.Event ServiceCall ServiceAnswer → Program.Event RouterCall RouterAnswer
  | ⟨query, answer⟩ => ⟨.inner query, answer⟩

theorem makes_lift {α : Type} {program : Program ServiceCall ServiceAnswer α}
    {events : List (Program.Event RouterCall RouterAnswer)} {next : RouterCall}
    (makes : Program.Makes (program.interpret lift) events next) :
    ∃ inner query, events = inner.map liftEvent ∧ next = .inner query ∧
      Program.Makes program inner query := by
  induction program generalizing events with
  | done value => exact absurd makes Program.not_makes_done
  | call query resume inductionHypothesis =>
      rcases Program.makes_call_iff.mp makes with ⟨rfl, rfl⟩ | ⟨answer, rest, rfl, later⟩
      · exact ⟨[], query, rfl, rfl, .now⟩
      · rcases inductionHypothesis answer later with ⟨inner, last, rfl, rfl, makesInner⟩
        have makesQuery : Program.Makes (.call query resume) (⟨query, answer⟩ :: inner) last :=
          @Program.Makes.later ServiceCall ServiceAnswer α query last resume answer inner makesInner
        exact ⟨⟨query, answer⟩ :: inner, last, rfl, rfl, makesQuery⟩

/-- A gateway that has been started with a verifier where it may be.  What it does for tickets is
done for those that its verifier vouches for; but its provider can be used without a ticket. -/
structure GatewayProcess.Gated (gateway : GatewayProcess) (web : Web) : Prop where
  started : gateway.cli.zkVerifier = some gateway.verifier.kind ∧
    gateway.verifier.Started gateway.machine gateway.cli gateway.listening.addr
  vouched : ∀ request events query,
    Program.Makes (gateway.handle web request) events (.inner (.gateway query)) →
    NeedsTicket query →
    request.method = .post ∧ request.path = text "/v1/infer" ∧ web.SaysJson request ∧
    ∃ inner env plaintext req, events = inner.map liftEvent ∧
      web.server.extract request.body = .ok env ∧
      openRequestAtGateway gateway.state.primitives gateway.state.aead gateway.state.keypair env =
        .ok plaintext ∧
      gateway.state.library.readRequest plaintext = .ok req ∧ checkRequest env req = .ok () ∧
      gateway.verifier.Vouches req.ticket
        ⟨req.authorizationCommitment gateway.state.library.shake256⟩ inner
  proxied : ∀ request events method url bearer body,
    Program.Makes (gateway.handle web request) events (.proxy method url bearer body) →
    events = [] ∧ bearer = gateway.cli.providerApiKey ∧
      (request.path = text "/v1/models" ∧ body = none ∨
        request.path = text "/v1/chat/completions" ∧ request.method = .post ∧
          ∃ value, web.extractValue gateway.state.library request = .ok value ∧
            body = some value)
  passesThrough : ∀ request value, request.method = .post →
    request.path = text "/v1/chat/completions" → web.SaysJson request →
    request.body.length ≤ bodyLimit →
    gateway.state.library.readJson request.body = some value →
    Program.Makes (gateway.handle web request) []
      (.proxy .post (providerUrl gateway.cli.providerBaseUrl (text "/v1/chat/completions"))
        gateway.cli.providerApiKey (some value))

section Routes

variable {gateway : GatewayProcess} {web : Web} {request : HttpRequest} {route : Route}
  {events : List (Program.Event RouterCall RouterAnswer)} {next : RouterCall}

theorem makes_getRoute (makes : Program.Makes (GatewayProcess.getRoute web request route) events
    next) : Program.Makes route events next := by
  rw [GatewayProcess.getRoute] at makes
  split at makes
  next => exact makes
  next =>
    rcases Program.makes_bind_iff.mp makes with inRoute | ⟨_, _, _, _, _, finished⟩
    · exact inRoute
    · exact absurd finished Program.not_makes_done
  next => exact absurd makes Program.not_makes_done

theorem makes_postRoute (makes : Program.Makes (GatewayProcess.postRoute web request route) events
    next) : request.method = .post ∧ Program.Makes route events next := by
  rw [GatewayProcess.postRoute] at makes
  split at makes
  next isPost => exact ⟨isPost, makes⟩
  next => exact absurd makes Program.not_makes_done

theorem makes_compatProxy {state : AppState} {method : Method} {path : Text} {body : Option Json}
    (makes : Program.Makes (compatProxy web state method path body) events next) :
    events = [] ∧
      next = .proxy method (providerUrl state.providerBaseUrl path) state.providerApiKey body := by
  rcases Program.makes_call_iff.mp makes with first | ⟨_, _, _, finished⟩
  · exact first
  · exact absurd finished Program.not_makes_done

/-- The routes that make calls. -/
theorem makes_handle (makes : Program.Makes (gateway.handle web request) events next) :
    (request.path = text "/v1/models" ∧
      Program.Makes (gateway.compatModels web) events next) ∨
    (request.path = text "/v1/chat/completions" ∧ request.method = .post ∧
      Program.Makes (gateway.compatChatCompletions web request) events next) ∨
    (request.path = text "/v1/infer" ∧ request.method = .post ∧
      Program.Makes (gateway.inferRoute web request) events next) := by
  rw [GatewayProcess.handle] at makes
  split at makes
  next => exact absurd (makes_getRoute makes) Program.not_makes_done
  next =>
    split at makes
    next => exact absurd (makes_getRoute makes) Program.not_makes_done
    next =>
      split at makes
      next isModels => exact .inl ⟨isModels, makes_getRoute makes⟩
      next =>
        split at makes
        next isChat =>
          rcases makes_postRoute makes with ⟨isPost, inRoute⟩
          exact .inr (.inl ⟨isChat, isPost, inRoute⟩)
        next =>
          split at makes
          next isInfer =>
            rcases makes_postRoute makes with ⟨isPost, inRoute⟩
            exact .inr (.inr ⟨isInfer, isPost, inRoute⟩)
          next => exact absurd makes Program.not_makes_done

theorem makes_compatChatCompletions
    (makes : Program.Makes (gateway.compatChatCompletions web request) events next) :
    ∃ value, web.extractValue gateway.state.library request = .ok value ∧ events = [] ∧
      next = .proxy .post (providerUrl gateway.state.providerBaseUrl
        (text "/v1/chat/completions")) gateway.state.providerApiKey (some value) := by
  rw [GatewayProcess.compatChatCompletions] at makes
  split at makes
  next => exact absurd makes Program.not_makes_done
  next value isValue => exact ⟨value, isValue, makes_compatProxy makes⟩

theorem makes_inferRoute (makes : Program.Makes (gateway.inferRoute web request) events next) :
    web.SaysJson request ∧ ∃ inner query, events = inner.map liftEvent ∧ next = .inner query ∧
      Program.Makes ((web.server.inferEndpoint gateway.state request.body).interpret
        (gateway.verifier.serve gateway.state.library)) inner query := by
  rw [GatewayProcess.inferRoute] at makes
  split at makes
  next saysJson => exact ⟨saysJson, makes_lift makes⟩
  next => exact absurd makes Program.not_makes_done

theorem handle_of_chat (isChat : request.path = text "/v1/chat/completions")
    (isPost : request.method = .post) :
    gateway.handle web request = gateway.compatChatCompletions web request := by
  have notHealthz : text "/v1/chat/completions" ≠ text "/healthz" := by decide
  have notPubkey : text "/v1/chat/completions" ≠ text "/v1/pubkey" := by decide
  have notModels : text "/v1/chat/completions" ≠ text "/v1/models" := by decide
  rw [GatewayProcess.handle, isChat, if_neg notHealthz, if_neg notPubkey, if_neg notModels,
    if_pos rfl, GatewayProcess.postRoute, isPost]

end Routes

/-- **A gateway is as good as its verifier**, and its pass-through routes as open as its port. -/
theorem GatewayProcess.gated (gateway : GatewayProcess) (web : Web) : gateway.Gated web := by
  constructor
  case started => exact gateway.hasStarted
  case vouched =>
    intro request events query makes needs
    rcases makes_handle makes with ⟨_, inRoute⟩ | ⟨_, _, inRoute⟩ | ⟨isInfer, isPost, inRoute⟩
    · rcases makes_compatProxy inRoute with ⟨_, ⟨⟩⟩
    · rcases makes_compatChatCompletions inRoute with ⟨_, _, _, ⟨⟩⟩
    · rcases makes_inferRoute inRoute with ⟨saysJson, inner, _, rfl, ⟨⟩, makesInner⟩
      rcases vouches_of_makes makesInner needs with
        ⟨env, plaintext, req, extracted, opened, read, checked, vouches⟩
      exact ⟨isPost, isInfer, saysJson, inner, env, plaintext, req, rfl, extracted, opened, read,
        checked,
        vouches⟩
  case proxied =>
    intro request events method url bearer body makes
    rcases makes_handle makes with ⟨isModels, inRoute⟩ | ⟨isChat, isPost, inRoute⟩ | ⟨_, _, inRoute⟩
    · rcases makes_compatProxy inRoute with ⟨rfl, ⟨⟩⟩
      exact ⟨rfl, rfl, .inl ⟨isModels, rfl⟩⟩
    · rcases makes_compatChatCompletions inRoute with ⟨value, isValue, rfl, ⟨⟩⟩
      exact ⟨rfl, rfl, .inr ⟨isChat, isPost, value, isValue, rfl⟩⟩
    · rcases makes_inferRoute inRoute with ⟨_, _, _, _, ⟨⟩, _⟩
  case passesThrough =>
    intro request value isPost isChat saysJson short isValue
    rw [handle_of_chat isChat isPost, GatewayProcess.compatChatCompletions,
      Web.extractValue_eq_ok_iff.mpr ⟨saysJson, short, isValue⟩]
    exact .now

/-! ## A gateway for development -/

def loopback : SocketAddr :=
  ⟨.v4 127 0 0 1, 8080⟩

def plainMachine : Machine where
  halo2 := false
  library := plainState.library
  primitives := plainState.primitives
  aead := plainState.aead
  parseAddr _ := some loopback
  parseUrl url := .ok ⟨text "http", url⟩
  readFile _ := .ok []
  opensDb _ := true
  buildsClient := true
  buildsCorsLayer _ := true
  binds _ := true
  showStatus := decimal
  readVerifyResponse _ := .error []

def loopbackCli : Cli where
  listenAddr := text "127.0.0.1:8080"
  gatewaySecretKeyB64 := some (Base64.encode (List.replicate 32 1))
  dbPath := text "./gateway-db"
  allowDummyVerifier := true
  allowDummyNonLoopbackLocalDemo := false
  zkVerifier := some .dummy
  halo2VkPath := none
  halo2ParamsPath := none
  actumVerifierUrl := none
  actumVerifierBearerToken := none
  actumAudience := none
  actumAllowInsecureHttpLocalDev := false
  providerBaseUrl := text "http://localhost:8000"
  providerApiKey := none
  nullifierPendingTtlMs := 300000
  corsAllowedOrigins := text "http://localhost:3000,http://127.0.0.1:3000"

def plainWeb : Web where
  server := ⟨.standard, fun _ => ⟨422, []⟩⟩
  jsonContentType value := value = utf8 (text "application/json")
  rejectionText _ := []
  fromUtf8Lossy _ := []
  refusal _ := ⟨404, []⟩

/-- A verifier for development listens at home. -/
theorem gated_loopback : ∃ gateway : GatewayProcess,
    gateway.cli = loopbackCli ∧ gateway.verifier.kind = .dummy ∧ gateway.Gated plainWeb := by
  have started : start plainMachine loopbackCli =
      .ok ⟨loopback, ⟨Block.replicate 32 1⟩, .dummy⟩ := rfl
  exact ⟨⟨plainMachine, loopbackCli, _, started⟩, rfl, rfl, GatewayProcess.gated _ plainWeb⟩

end ZkLlmGateway.Gateway
