import ZkLlmGateway.Client.Operations

/-!
# The local HTTP API

Any number of requests are in progress at once.  Those for one session wait for the
lock of its agent and work on it one after the other; a request that is disconnected is
given up wherever it waits, unless its reply is a stream.  For the agent it is as if the
requests had come one at a time, in the order in which they came to its lock.
-/

namespace ZkLlmGateway.Client

open ZkLlmGateway.Encoding ZkLlmGateway.Common ZkLlmGateway.Gateway ZkLlmGateway.Transition

/-! ## Requests -/

def defaultLimit : Nat := 50

def defaultK : Nat := 8

/-- The endpoints that work on an agent, with what is read of a request. -/
inductive ApiCall
  | getSession
  | getMessages (limit : Option Nat)
  | postChat (message : Text)
  | postChatStream (message : Text)
  | getMemory
  | postMemory (content : Text) (tags : Option (List Text))
  | postMemorySearch (query : Text) (k : Option Nat)
  | postRedactionTerm (term : Text)
  | postSystem (system : Text)
  | postSave

/-- What the handler of an endpoint does with the agent. -/
def ApiCall.op (sessionId : Text) : ApiCall → AgentOp
  | getSession => .view sessionId
  | getMessages limit => .messages (limit.getD defaultLimit)
  | postChat message => .chat message false
  | postChatStream message => .chat message true
  | getMemory => .memory
  | postMemory content tags => .remember content (tags.getD [])
  | postMemorySearch query k => .search query (k.getD defaultK)
  | postRedactionTerm term => .redactionTerm term
  | postSystem system => .system system
  | postSave => .save

/-- The reply is a stream, which is sent by a task of its own. -/
def ApiCall.isStream : ApiCall → Bool
  | postChatStream _ => true
  | _ => false

/-- A request; those without a session id are for the default session. -/
structure ApiRequest where
  xApiKey : Option Bytes
  sessionId : Option Text
  call : ApiCall

inductive ApiRefusal
  | notFound
  | unauthorized
  | badRequest (message : Text)
  deriving DecidableEq

def ApiRefusal.status : ApiRefusal → Nat
  | notFound => 404
  | unauthorized => 401
  | badRequest _ => 400

structure ApiState where
  apiKey : Option Text
  defaultSessionId : Text
  enableMultiSession : Bool

/-- `HeaderValue::to_str`: only visible characters are read. -/
def headerText (value : Bytes) : Option Text :=
  if value.all fun byte => 32 ≤ byte && byte < 127 || byte = 9 then
    some (value.map fun byte => Char.ofNat byte.toNat)
  else none

namespace ApiState

def checkApiKey (state : ApiState) (xApiKey : Option Bytes) : Except ApiRefusal Unit :=
  match state.apiKey with
  | none => .ok ()
  | some expected =>
      let got := (xApiKey.bind headerText).getD []
      if got ≠ expected then .error .unauthorized else .ok ()

/-- The session that a request is for, when it is let in. -/
def letIn (state : ApiState) (request : ApiRequest) : Except ApiRefusal Text :=
  match request.sessionId with
  | none => (state.checkApiKey request.xApiKey).map fun _ => state.defaultSessionId
  | some sessionId =>
      if state.enableMultiSession then
        (state.checkApiKey request.xApiKey).map fun _ => sessionId
      else .error .notFound

end ApiState

/-! ## The server -/

/-- `{:#}`: an error and what caused it. -/
def withCauses (message : Text) (causes : List Text) : Text :=
  message ++ causes.flatMap fun cause => text ": " ++ cause

/-- An error of the manager with the texts of its causes. -/
structure Failure where
  error : ManagerError
  causes : List Text

def Failure.message (failure : Failure) : Text :=
  withCauses failure.error.message failure.causes

/-- An agent with its lock. -/
abbrev AgentLock (F : Type) :=
  Mutex Nat (PersistedAgent F) AgentOp (AgentInput F) AgentWait AgentReply

/-- The agents in memory, and the requests so far with those that were refused. -/
structure ApiServer (F : Type) where
  agents : Text → Option (AgentLock F)
  requests : Nat → Option ApiRequest
  refusals : Nat → Option ApiRefusal

inductive ApiEvent (F : Type)
  /-- A request comes to the lock of its agent, or is refused; `found` is what the manager finds
  for a session that is not in memory. -/
  | request (n : Nat) (request : ApiRequest) (found : Except Failure (PersistedAgent F))
  /-- The next request for a session has the lock, and goes on. -/
  | enter (sessionId : Text) (input : AgentInput F)
  /-- The request that has the lock has what it waits for, and goes on. -/
  | resume (sessionId : Text) (input : AgentInput F)
  /-- The client of a request is gone. -/
  | disconnect (n : Nat)

namespace ApiServer

variable {F : Type}

/-- `get_or_load` -/
def getOrLoad (server : ApiServer F) (sessionId : Text)
    (found : Except Failure (PersistedAgent F)) : Except Failure (AgentLock F) :=
  match validateSessionId sessionId with
  | .error e => .error ⟨.sessionId e, []⟩
  | .ok () =>
      match server.agents sessionId with
      | some lock => .ok lock
      | none => found.map Mutex.fresh

def setAgent (server : ApiServer F) (sessionId : Text) (lock : AgentLock F) : ApiServer F :=
  { server with agents := Function.update server.agents sessionId (some lock) }

@[simp]
theorem agents_setAgent (server : ApiServer F) (sessionId : Text) (lock : AgentLock F) :
    (server.setAgent sessionId lock).agents sessionId = some lock :=
  Function.update_self ..

def setRequest (server : ApiServer F) (n : Nat) (request : ApiRequest) : ApiServer F :=
  { server with requests := Function.update server.requests n (some request) }

def refuse (server : ApiServer F) (n : Nat) (refusal : ApiRefusal) : ApiServer F :=
  { server with refusals := Function.update server.refusals n (some refusal) }

variable [Field F] [LinearOrder F] (state : ApiState) (context : AgentContext F)

/-- A step under the lock of an agent. -/
def turn (server : ApiServer F) (sessionId : Text) (event : MutexEvent Nat AgentOp (AgentInput F)) :
    Option (ApiServer F) :=
  (server.agents sessionId).bind fun lock =>
    (lock.step (PersistedAgent.sections context) event).map (server.setAgent sessionId)

def step (server : ApiServer F) : ApiEvent F → Option (ApiServer F)
  | .request n request found =>
      if (server.requests n).isSome then none
      else
        let server := server.setRequest n request
        match state.letIn request with
        | .error refusal => some (server.refuse n refusal)
        | .ok sessionId =>
            match server.getOrLoad sessionId found with
            | .error e => some (server.refuse n (.badRequest e.message))
            | .ok lock =>
                (server.setAgent sessionId lock).turn context sessionId
                  (.request n (request.call.op sessionId))
  | .enter sessionId input => server.turn context sessionId (.acquire input)
  | .resume sessionId input => server.turn context sessionId (.answer input)
  | .disconnect n =>
      (server.requests n).bind fun request =>
        if request.call.isStream then some server
        else
          match state.letIn request with
          | .error _ => some server
          | .ok sessionId => server.turn context sessionId (.cancel n)

/-- Runs start without requests; there may be agents in memory. -/
def system : System (ApiServer F) (ApiEvent F) where
  init server := (∀ n, server.requests n = none) ∧ (∀ n, server.refusals n = none) ∧
    ∀ sessionId lock, server.agents sessionId = some lock →
      ValidSessionId sessionId ∧ ∃ agent, lock = Mutex.fresh agent
  step := step state context

/-- A server with one agent in memory. -/
theorem init_of_single {server : ApiServer F} {sessionId : Text} {agent : PersistedAgent F}
    (agents : server.agents = Function.update (fun _ => none) sessionId (some (.fresh agent)))
    (valid : ValidSessionId sessionId) (noRequests : ∀ n, server.requests n = none)
    (noRefusals : ∀ n, server.refusals n = none) : (system state context).init server := by
  refine ⟨noRequests, noRefusals, fun other lock isLoaded => ?_⟩
  rw [agents, Function.update_apply] at isLoaded
  split at isLoaded
  next same =>
    cases isLoaded
    rw [same]
    exact ⟨valid, agent, rfl⟩
  next => contradiction

/-- What a step can do: a request is refused or comes to the lock of its session, something
happens under a lock, or nothing does. -/
inductive Moves (server : ApiServer F) : ApiEvent F → ApiServer F → Prop
  | refuse {n : Nat} {request : ApiRequest} {found : Except Failure (PersistedAgent F)}
      {refusal : ApiRefusal} (isNew : server.requests n = none)
      (reason : state.letIn request = .error refusal ∨ ∃ sessionId problem,
        state.letIn request = .ok sessionId ∧
          refusal = .badRequest (Failure.message problem)) :
      Moves server (.request n request found) ((server.setRequest n request).refuse n refusal)
  | arrive {n : Nat} {request : ApiRequest} {found : Except Failure (PersistedAgent F)}
      {sessionId : Text} {lock next : AgentLock F} (isNew : server.requests n = none)
      (admitted : state.letIn request = .ok sessionId)
      (isFound : server.getOrLoad sessionId found = .ok lock)
      (turned : lock.step (PersistedAgent.sections context)
        (.request n (request.call.op sessionId)) = some next) :
      Moves server (.request n request found)
        ((server.setRequest n request).setAgent sessionId next)
  | enter {sessionId : Text} {input : AgentInput F} {lock next : AgentLock F}
      (isLoaded : server.agents sessionId = some lock)
      (turned : lock.step (PersistedAgent.sections context) (.acquire input) = some next) :
      Moves server (.enter sessionId input) (server.setAgent sessionId next)
  | resume {sessionId : Text} {input : AgentInput F} {lock next : AgentLock F}
      (isLoaded : server.agents sessionId = some lock)
      (turned : lock.step (PersistedAgent.sections context) (.answer input) = some next) :
      Moves server (.resume sessionId input) (server.setAgent sessionId next)
  | cancel {n : Nat} {request : ApiRequest} {sessionId : Text} {lock next : AgentLock F}
      (isRequest : server.requests n = some request) (unstreamed : request.call.isStream = false)
      (isLoaded : server.agents sessionId = some lock)
      (turned : lock.step (PersistedAgent.sections context) (.cancel n) = some next) :
      Moves server (.disconnect n) (server.setAgent sessionId next)
  | ignore {n : Nat} : Moves server (.disconnect n) server

variable {state context} {server target : ApiServer F}

theorem exists_of_turn {sessionId : Text} {event : MutexEvent Nat AgentOp (AgentInput F)}
    (turned : server.turn context sessionId event = some target) :
    ∃ lock next, server.agents sessionId = some lock ∧
      lock.step (PersistedAgent.sections context) event = some next ∧
      target = server.setAgent sessionId next := by
  obtain ⟨lock, isLoaded, rest⟩ := Option.bind_eq_some_iff.mp turned
  obtain ⟨next, stepped, rfl⟩ := Option.map_eq_some_iff.mp rest
  exact ⟨lock, next, isLoaded, stepped, rfl⟩

/-- The first in the queue has the lock. -/
theorem step_enter (state : ApiState) {sessionId : Text} {input : AgentInput F}
    {lock : AgentLock F} {n : Nat} {op : AgentOp} {rest : List (Nat × AgentOp)}
    {stopped : PersistedAgent F × Pause AgentWait AgentReply}
    (isLoaded : server.agents sessionId = some lock) (isFree : lock.holder = none)
    (isQueue : lock.queue = (n, op) :: rest)
    (entered : lock.object.enter context op input = some stopped) :
    server.step state context (.enter sessionId input) = some (server.setAgent sessionId
      (({ lock with queue := rest } : AgentLock F).settle n op [input] stopped)) := by
  have enters : (PersistedAgent.sections context).enter lock.object op input = some stopped :=
    entered
  simp only [step, turn, isLoaded, Option.bind_some, Mutex.step, isFree, isQueue, enters,
    Option.map_some]

/-- What has the lock goes on. -/
theorem step_resume (state : ApiState) {sessionId : Text} {input : AgentInput F}
    {lock : AgentLock F} {n : Nat} {op : AgentOp} {inputs : List (AgentInput F)} {wait : AgentWait}
    {stopped : PersistedAgent F × Pause AgentWait AgentReply}
    (isLoaded : server.agents sessionId = some lock)
    (isHolder : lock.holder = some ⟨n, op, inputs, wait⟩)
    (resumed : lock.object.resume context wait input = some stopped) :
    server.step state context (.resume sessionId input) = some (server.setAgent sessionId
      (lock.settle n op (inputs ++ [input]) stopped)) := by
  have resumes : (PersistedAgent.sections context).resume lock.object wait input = some stopped :=
    resumed
  simp only [step, turn, isLoaded, Option.bind_some, Mutex.step, isHolder, resumes,
    Option.map_some]

theorem moves_of_step {event : ApiEvent F}
    (stepped : server.step state context event = some target) :
    Moves state context server event target := by
  cases event with
  | request n request found =>
      obtain ⟨unused, rest⟩ := Option.ite_none_left_eq_some.mp stepped
      rw [Option.isSome_iff_ne_none, not_not] at unused
      split at rest
      next refusal denied =>
        cases rest
        exact .refuse unused (.inl denied)
      next sessionId admitted =>
        split at rest
        next problem failed =>
          cases rest
          exact .refuse unused (.inr ⟨sessionId, problem, admitted, rfl⟩)
        next lock isFound =>
          obtain ⟨same, next, isSame, turned, rfl⟩ := exists_of_turn rest
          cases isSame.symm.trans (Function.update_self ..)
          have twice : ((server.setRequest n request).setAgent sessionId lock).setAgent sessionId
              next = (server.setRequest n request).setAgent sessionId next := by
            simp only [ApiServer.setAgent, ApiServer.setRequest, Function.update_idem]
          rw [twice]
          exact .arrive unused admitted isFound turned
  | enter sessionId input =>
      obtain ⟨lock, next, isLoaded, turned, rfl⟩ := exists_of_turn stepped
      exact .enter isLoaded turned
  | resume sessionId input =>
      obtain ⟨lock, next, isLoaded, turned, rfl⟩ := exists_of_turn stepped
      exact .resume isLoaded turned
  | disconnect n =>
      obtain ⟨request, isRequest, rest⟩ := Option.bind_eq_some_iff.mp stepped
      split at rest
      next =>
        cases rest
        exact .ignore
      next unstreamed =>
        split at rest
        next =>
          cases rest
          exact .ignore
        next sessionId _ =>
          obtain ⟨lock, next, isLoaded, turned, rfl⟩ := exists_of_turn rest
          exact .cancel isRequest (by simpa using unstreamed) isLoaded turned

end ApiServer

/-! ## One request at a time -/

/-- A request that has had the lock, with its reply unless it was given up. -/
structure Performed where
  n : Nat
  op : AgentOp
  reply : Option AgentReply

section Sequential

variable {F : Type} [Field F] [LinearOrder F] {context : AgentContext F}

/-- The requests, one at a time, make `next` of the agent. -/
inductive Sequential (context : AgentContext F) (start : PersistedAgent F) :
    List Performed → PersistedAgent F → Prop
  | nil : Sequential context start [] start
  | perform {history : List Performed} {middle next : PersistedAgent F} {n : Nat} {op : AgentOp}
      {reply : AgentReply} (before : Sequential context start history middle)
      (performs : Performs context middle op next reply) :
      Sequential context start (history ++ [⟨n, op, some reply⟩]) next
  | giveUp {history : List Performed} {middle next : PersistedAgent F} {n : Nat} {op : AgentOp}
      (before : Sequential context start history middle)
      (givesUp : GivesUp context middle op next) :
      Sequential context start (history ++ [⟨n, op, none⟩]) next

/-- What the request that has the lock has done so far, or that none has it. -/
def InProgress (context : AgentContext F) (middle object : PersistedAgent F) :
    Option (Holder Nat AgentOp (AgentInput F) AgentWait) → Prop
  | none => object = middle
  | some holder => ∃ message streamed, holder.op = .chat message streamed ∧
      Waits context middle message streamed object holder.wait

/-- The requests for a session that have had the lock of its agent might have come one at a time,
in the order in which they came to the lock: they leave the agent as it is, but for what the
one that has the lock has done so far, and they have the same replies. -/
structure Linearized (state : ApiState) (context : AgentContext F) (server : ApiServer F)
    (sessionId : Text) (lock : AgentLock F) : Prop where
  valid : ValidSessionId sessionId
  admitted : ∀ n op, (n, op) ∈ lock.arrivals → ∃ request, server.requests n = some request ∧
    state.letIn request = .ok sessionId ∧ request.call.op sessionId = op
  distinct : (lock.arrivals.map Prod.fst).Nodup
  sequential : ∃ history middle, Sequential context lock.initial history middle ∧
    InProgress context middle lock.object lock.holder ∧
    ((history.map fun performed => (performed.n, performed.op)) ++
      (lock.holder.map fun holder => (holder.task, holder.op)).toList ++
      lock.queue).Sublist lock.arrivals ∧
    ∀ n reply, lock.results n = some reply ↔ ∃ op, ⟨n, op, some reply⟩ ∈ history

abbrev AgentTurn (F : Type) :=
  Turn Nat AgentOp (AgentInput F) AgentWait AgentReply

def performedOf (turn : AgentTurn F) : Performed where
  n := turn.task
  op := turn.op
  reply := match turn.pause with
    | .returns reply => some reply
    | .waits _ => none

/-- The request is not a stream that was given up. -/
def Uncut (turn : AgentTurn F) : Prop :=
  ∀ wait, turn.pause = .waits wait → ∀ message, turn.op ≠ .chat message true

theorem sequential_of_serial {start object : PersistedAgent F} {turns : List (AgentTurn F)}
    (serial : (PersistedAgent.sections context).Serial start turns object)
    (uncut : ∀ turn ∈ turns, Uncut turn) :
    Sequential context start (turns.map performedOf) object := by
  induction serial with
  | nil => exact .nil
  | @concat turns turn middle object before executed inductionHypothesis =>
      have earlier := inductionHypothesis fun turn member =>
        uncut turn (List.mem_append_left _ member)
      have isUncut := uncut turn (List.mem_append_right _ (List.mem_singleton_self turn))
      have stops := stops_of_executes executed
      obtain ⟨task, op, inputs, pause⟩ := turn
      rw [List.map_append, List.map_singleton]
      cases pause with
      | returns reply => exact .perform earlier stops
      | waits wait =>
          obtain ⟨message, streamed, rfl, waits⟩ := stops
          cases streamed with
          | false => exact .giveUp earlier (givesUp_of_waits waits)
          | true => exact absurd rfl (isUncut wait rfl message)

theorem inProgress_of_executes {middle object : PersistedAgent F}
    {holder : Holder Nat AgentOp (AgentInput F) AgentWait}
    (executes : (PersistedAgent.sections context).Executes middle holder.op holder.inputs object
      (.waits holder.wait)) : InProgress context middle object (some holder) :=
  stops_of_executes executes

end Sequential

/-! ## The invariant -/

namespace ApiServer

variable {F : Type} [Field F] [LinearOrder F] {state : ApiState} {context : AgentContext F}

/-- What holds of the agent of a session. -/
structure Sound (state : ApiState) (context : AgentContext F)
    (requests : Nat → Option ApiRequest) (sessionId : Text) (lock : AgentLock F) : Prop where
  valid : ValidSessionId sessionId
  admitted : ∀ n op, (n, op) ∈ lock.arrivals → ∃ request, requests n = some request ∧
    state.letIn request = .ok sessionId ∧ request.call.op sessionId = op
  serialized : lock.Serialized (PersistedAgent.sections context)
  uncut : ∀ turn ∈ lock.turns, Uncut turn

/-- Every request is refused, or comes to the lock of the session that it is for. -/
structure Handled (state : ApiState) (server : ApiServer F) : Prop where
  arrives : ∀ n request, server.requests n = some request → server.refusals n = none →
    ∃ sessionId lock, state.letIn request = .ok sessionId ∧
      server.agents sessionId = some lock ∧ (n, request.call.op sessionId) ∈ lock.arrivals
  refused : ∀ n refusal, server.refusals n = some refusal →
    (∃ request, server.requests n = some request ∧ (state.letIn request = .error refusal ∨
      ∃ sessionId problem, state.letIn request = .ok sessionId ∧
        refusal = .badRequest (Failure.message problem))) ∧
    ∀ sessionId lock op, server.agents sessionId = some lock → (n, op) ∉ lock.arrivals

section Steps

variable {server target : ApiServer F} {sessionId : Text} {lock next : AgentLock F}
  {requests : Nat → Option ApiRequest}

theorem Sound.linearized (sound : Sound state context server.requests sessionId lock) :
    Linearized state context server sessionId lock where
  valid := sound.valid
  admitted := sound.admitted
  distinct := sound.serialized.distinct
  sequential := by
    obtain ⟨middle, serial, stands⟩ := sound.serialized.serial
    refine ⟨lock.turns.map performedOf, middle, sequential_of_serial serial sound.uncut, ?_, ?_, ?_⟩
    · cases isHolder : lock.holder with
      | none =>
          rw [isHolder] at stands
          exact stands
      | some holder =>
          rw [isHolder] at stands
          exact inProgress_of_executes stands
    · rw [List.map_map]
      exact sound.serialized.inOrder
    · intro n reply
      rw [sound.serialized.results]
      constructor
      · rintro ⟨turn, member, rfl, returned⟩
        refine ⟨turn.op, List.mem_map.mpr ⟨turn, member, ?_⟩⟩
        rw [performedOf, returned]
      · rintro ⟨op, member⟩
        obtain ⟨turn, isTurn, same⟩ := List.mem_map.mp member
        refine ⟨turn, isTurn, congrArg Performed.n same, ?_⟩
        have replied := congrArg Performed.reply same
        cases isPause : turn.pause with
        | returns other =>
            simp only [performedOf, isPause, Option.some.injEq] at replied
            rw [replied]
        | waits wait => simp [performedOf, isPause] at replied

theorem Sound.mono (sound : Sound state context requests sessionId lock)
    {more : Nat → Option ApiRequest}
    (kept : ∀ n request, requests n = some request → more n = some request) :
    Sound state context more sessionId lock where
  valid := sound.valid
  admitted n op arrived := by
    obtain ⟨request, isRequest, admitted⟩ := sound.admitted n op arrived
    exact ⟨request, kept n request isRequest, admitted⟩
  serialized := sound.serialized
  uncut := sound.uncut

theorem sound_fresh (valid : ValidSessionId sessionId) (agent : PersistedAgent F) :
    Sound state context requests sessionId (Mutex.fresh agent) where
  valid := valid
  admitted _ _ arrived := absurd arrived List.not_mem_nil
  serialized := Mutex.serialized_fresh _ agent
  uncut _ member := absurd member List.not_mem_nil

theorem isStream_of_op {call : ApiCall} {message : Text}
    (isChat : call.op sessionId = .chat message true) : call.isStream = true := by
  cases call with
  | postChatStream message => rfl
  | postChat message => cases isChat
  | _ => contradiction

/-- **What a step under the lock keeps**: only admitted requests arrive, and no stream is cut. -/
theorem Sound.step (sound : Sound state context requests sessionId lock)
    {event : MutexEvent Nat AgentOp (AgentInput F)}
    (stepped : lock.step (PersistedAgent.sections context) event = some next)
    (arrives : ∀ n op, event = .request n op → ∃ request, requests n = some request ∧
      state.letIn request = .ok sessionId ∧ request.call.op sessionId = op)
    (cuts : ∀ n, event = .cancel n → ∃ request, requests n = some request ∧
      request.call.isStream = false) :
    Sound state context requests sessionId next := by
  have serialized := sound.serialized.step stepped
  have admitted : ∀ n op, (n, op) ∈ next.arrivals → ∃ request, requests n = some request ∧
      state.letIn request = .ok sessionId ∧ request.call.op sessionId = op := by
    intro n op arrived
    rcases Mutex.arrivals_of_step stepped with same | ⟨task, other, isRequest, same⟩
    · rw [same] at arrived
      exact sound.admitted n op arrived
    · rw [same, List.mem_append, List.mem_singleton] at arrived
      rcases arrived with arrived | isLast
      · exact sound.admitted n op arrived
      · cases isLast
        exact arrives n op isRequest
  refine ⟨sound.valid, admitted, serialized, fun turn member wait waits message isChat => ?_⟩
  rcases Mutex.cancelled_of_step stepped member waits with before | isCancel
  · exact sound.uncut turn before wait waits message isChat
  · obtain ⟨request, isRequest, unstreamed⟩ := cuts turn.task isCancel
    have arrived : (turn.task, turn.op) ∈ next.arrivals := by
      apply serialized.inOrder.mem
      rw [Mutex.order, List.append_assoc]
      apply List.mem_append_left
      exact List.mem_map.mpr ⟨turn, member, rfl⟩
    obtain ⟨other, isOther, _, isOp⟩ := admitted turn.task turn.op arrived
    rw [isRequest] at isOther
    cases isOther
    rw [isChat] at isOp
    rw [isStream_of_op isOp] at unstreamed
    contradiction

/-- The agents of all sessions are sound. -/
def AllSound (state : ApiState) (context : AgentContext F) (server : ApiServer F) : Prop :=
  ∀ sessionId lock, server.agents sessionId = some lock →
    Sound state context server.requests sessionId lock

theorem AllSound.setAgent (sound : AllSound state context server)
    (isSound : Sound state context server.requests sessionId lock) :
    AllSound state context (server.setAgent sessionId lock) := by
  intro other otherLock isLoaded
  simp only [ApiServer.setAgent, Function.update_apply] at isLoaded
  split at isLoaded
  next same =>
    cases isLoaded
    rw [same]
    exact isSound
  next => exact sound other otherLock isLoaded

theorem AllSound.setRequest (sound : AllSound state context server) {n : Nat}
    (isNew : server.requests n = none) (request : ApiRequest) :
    AllSound state context (server.setRequest n request) := by
  intro sessionId lock isLoaded
  apply (sound sessionId lock isLoaded).mono
  intro other otherRequest isRequest
  change Function.update server.requests n (some request) other = some otherRequest
  rw [Function.update_of_ne]
  · exact isRequest
  · rintro rfl
    rw [isNew] at isRequest
    contradiction

/-- The agent that is found or made is sound. -/
theorem AllSound.getOrLoad (sound : AllSound state context server)
    {found : Except Failure (PersistedAgent F)}
    (isFound : server.getOrLoad sessionId found = .ok lock) :
    Sound state context server.requests sessionId lock := by
  rw [ApiServer.getOrLoad] at isFound
  split at isFound
  next => contradiction
  next valid =>
    split at isFound
    next other isLoaded =>
      cases isFound
      exact sound sessionId lock isLoaded
    next =>
      cases found with
      | error problem => contradiction
      | ok agent =>
          cases isFound
          exact sound_fresh valid agent

theorem AllSound.step (sound : AllSound state context server) {event : ApiEvent F}
    (stepped : server.step state context event = some target) :
    AllSound state context target := by
  cases moves_of_step stepped with
  | @refuse n request found refusal isNew reason => exact sound.setRequest isNew request
  | @arrive n request found sessionId lock next isNew admitted isFound turned =>
      have extended := sound.setRequest isNew request
      apply extended.setAgent
      apply (extended.getOrLoad isFound).step turned
      · rintro other op ⟨⟩
        exact ⟨request, Function.update_self .., admitted, rfl⟩
      · rintro other ⟨⟩
  | enter isLoaded turned | resume isLoaded turned =>
      apply sound.setAgent
      exact (sound _ _ isLoaded).step turned (by rintro _ _ ⟨⟩) (by rintro _ ⟨⟩)
  | @cancel n request sessionId lock next isRequest unstreamed isLoaded turned =>
      apply sound.setAgent
      apply (sound _ _ isLoaded).step turned (by rintro _ _ ⟨⟩)
      rintro other ⟨⟩
      exact ⟨request, isRequest, unstreamed⟩
  | ignore => exact sound

/-! ### What becomes of a request -/

omit [Field F] [LinearOrder F] in
theorem Handled.unrefused (handled : Handled state server)
    (isLoaded : server.agents sessionId = some lock) {n : Nat} {op : AgentOp}
    (arrived : (n, op) ∈ lock.arrivals) : server.refusals n = none := by
  by_contra isSome
  obtain ⟨refusal, refused⟩ := Option.ne_none_iff_exists'.mp isSome
  exact (handled.refused n refusal refused).2 sessionId lock op isLoaded arrived

omit [Field F] [LinearOrder F] in
theorem Handled.unrefused_of_new (handled : Handled state server) {n : Nat}
    (isNew : server.requests n = none) : server.refusals n = none := by
  by_contra isSome
  obtain ⟨refusal, refused⟩ := Option.ne_none_iff_exists'.mp isSome
  obtain ⟨request, isRequest, _⟩ := (handled.refused n refusal refused).1
  rw [isNew] at isRequest
  contradiction

omit [Field F] [LinearOrder F] in
theorem Handled.setAgent (handled : Handled state server)
    (keeps : ∀ old, server.agents sessionId = some old →
      ∀ arrival ∈ old.arrivals, arrival ∈ lock.arrivals)
    (unrefused : ∀ n op, (n, op) ∈ lock.arrivals → server.refusals n = none) :
    Handled state (server.setAgent sessionId lock) := by
  constructor
  · intro n request isRequest notRefused
    obtain ⟨other, old, admitted, isLoaded, arrived⟩ :=
      handled.arrives n request isRequest notRefused
    by_cases same : other = sessionId
    · subst same
      exact ⟨other, lock, admitted, Function.update_self .., keeps old isLoaded _ arrived⟩
    · exact ⟨other, old, admitted, (Function.update_of_ne same ..).trans isLoaded, arrived⟩
  · intro n refusal refused
    refine ⟨(handled.refused n refusal refused).1, fun other otherLock op isLoaded arrived => ?_⟩
    simp only [ApiServer.setAgent, Function.update_apply] at isLoaded
    split at isLoaded
    next =>
      cases isLoaded
      change server.refusals n = some refusal at refused
      rw [unrefused n op arrived] at refused
      contradiction
    next => exact (handled.refused n refusal refused).2 other otherLock op isLoaded arrived

omit [Field F] [LinearOrder F] in
theorem Handled.setRequest (handled : Handled state server) {n : Nat} {request : ApiRequest}
    (isNew : server.requests n = none) (admitted : state.letIn request = .ok sessionId)
    (isLoaded : server.agents sessionId = some lock)
    (arrived : (n, request.call.op sessionId) ∈ lock.arrivals) :
    Handled state (server.setRequest n request) := by
  constructor
  · intro other otherRequest isRequest notRefused
    simp only [ApiServer.setRequest, Function.update_apply] at isRequest
    split at isRequest
    next same =>
      cases isRequest
      rw [same]
      exact ⟨sessionId, lock, admitted, isLoaded, arrived⟩
    next => exact handled.arrives other otherRequest isRequest notRefused
  · intro other refusal refused
    obtain ⟨⟨otherRequest, isRequest, reason⟩, absent⟩ := handled.refused other refusal refused
    refine ⟨⟨otherRequest, ?_, reason⟩, absent⟩
    change Function.update server.requests n (some request) other = some otherRequest
    rw [Function.update_of_ne]
    · exact isRequest
    · rintro rfl
      rw [isNew] at isRequest
      contradiction

/-- A request that is refused does not come to a lock. -/
theorem Handled.refuse (handled : Handled state server) (sound : AllSound state context server)
    {n : Nat} {request : ApiRequest} (isNew : server.requests n = none) {refusal : ApiRefusal}
    (reason : state.letIn request = .error refusal ∨ ∃ sessionId problem,
      state.letIn request = .ok sessionId ∧
        refusal = .badRequest (Failure.message problem)) :
    Handled state ((server.setRequest n request).refuse n refusal) := by
  have kept : ∀ other otherRequest, server.requests other = some otherRequest →
      ((server.setRequest n request).refuse n refusal).requests other = some otherRequest := by
    intro other otherRequest isRequest
    apply (Function.update_of_ne _ ..).trans isRequest
    rintro rfl
    rw [isNew] at isRequest
    contradiction
  constructor
  · intro other otherRequest isRequest notRefused
    simp only [ApiServer.refuse, ApiServer.setRequest, Function.update_apply]
      at isRequest notRefused
    split at notRefused
    next => contradiction
    next isOther =>
      rw [if_neg isOther] at isRequest
      exact handled.arrives other otherRequest isRequest notRefused
  · intro other otherRefusal refused
    simp only [ApiServer.refuse, ApiServer.setRequest, Function.update_apply] at refused
    split at refused
    next same =>
      cases refused
      rw [same]
      refine ⟨⟨request, Function.update_self .., reason⟩,
        fun sessionId lock op isLoaded arrived => ?_⟩
      obtain ⟨_, isRequest, _⟩ := (sound sessionId lock isLoaded).admitted n op arrived
      rw [isNew] at isRequest
      contradiction
    next =>
      obtain ⟨⟨otherRequest, isRequest, otherReason⟩, absent⟩ :=
        handled.refused other otherRefusal refused
      exact ⟨⟨otherRequest, kept other otherRequest isRequest, otherReason⟩, absent⟩

omit [Field F] [LinearOrder F] in
/-- A step of requests that have come to a lock. -/
theorem Handled.turn (handled : Handled state server)
    (isLoaded : server.agents sessionId = some lock) (same : next.arrivals = lock.arrivals) :
    Handled state (server.setAgent sessionId next) := by
  apply handled.setAgent
  · intro old isOld arrival arrived
    rw [isLoaded] at isOld
    cases isOld
    rw [same]
    exact arrived
  · intro n op arrived
    rw [same] at arrived
    exact handled.unrefused isLoaded arrived

omit [Field F] [LinearOrder F] in
/-- What is found is the agent in memory, or has no requests. -/
theorem getOrLoad_cases {found : Except Failure (PersistedAgent F)}
    (isFound : server.getOrLoad sessionId found = .ok lock) :
    server.agents sessionId = some lock ∨
      (server.agents sessionId = none ∧ ∃ agent, lock = Mutex.fresh agent) := by
  rw [ApiServer.getOrLoad] at isFound
  split at isFound
  next => contradiction
  next =>
    cases isLoaded : server.agents sessionId with
    | some old =>
        rw [isLoaded] at isFound
        exact .inl (congrArg some (Except.ok.inj isFound))
    | none =>
        rw [isLoaded] at isFound
        cases found with
        | error problem => contradiction
        | ok agent => exact .inr ⟨rfl, agent, (Except.ok.inj isFound).symm⟩

omit [Field F] [LinearOrder F] in
/-- A request comes to the lock of its session. -/
theorem Handled.arrive (handled : Handled state server) {n : Nat} {request : ApiRequest}
    (isNew : server.requests n = none) (admitted : state.letIn request = .ok sessionId)
    {found : Except Failure (PersistedAgent F)}
    (isFound : server.getOrLoad sessionId found = .ok lock)
    (arrivals : next.arrivals = lock.arrivals ++ [(n, request.call.op sessionId)]) :
    Handled state ((server.setRequest n request).setAgent sessionId next) := by
  have arrived : Handled state (server.setAgent sessionId next) := by
    rcases getOrLoad_cases isFound with isLoaded | ⟨unloaded, agent, rfl⟩
    · apply handled.setAgent
      · intro old isOld arrival arrived
        rw [isLoaded] at isOld
        cases isOld
        rw [arrivals]
        exact List.mem_append_left _ arrived
      · intro other op arrived
        rw [arrivals, List.mem_append, List.mem_singleton] at arrived
        rcases arrived with arrived | isLast
        · exact handled.unrefused isLoaded arrived
        · cases isLast
          exact handled.unrefused_of_new isNew
    · apply handled.setAgent
      · intro old isOld
        rw [unloaded] at isOld
        contradiction
      · intro other op arrived
        rw [arrivals] at arrived
        cases List.mem_singleton.mp arrived
        exact handled.unrefused_of_new isNew
  have requested : Handled state ((server.setAgent sessionId next).setRequest n request) := by
    apply arrived.setRequest isNew admitted (Function.update_self ..)
    rw [arrivals]
    exact List.mem_append_right _ (List.mem_singleton_self _)
  exact requested

theorem Handled.step (handled : Handled state server) (sound : AllSound state context server)
    {event : ApiEvent F} (stepped : server.step state context event = some target) :
    Handled state target := by
  have same : ∀ {lock next : AgentLock F} {event : MutexEvent Nat AgentOp (AgentInput F)},
      lock.step (PersistedAgent.sections context) event = some next →
      (∀ n op, event ≠ .request n op) → next.arrivals = lock.arrivals := by
    intro lock next event turned noRequest
    rcases Mutex.arrivals_of_step turned with same | ⟨n, op, isRequest, _⟩
    · exact same
    · exact absurd isRequest (noRequest n op)
  cases moves_of_step stepped with
  | refuse isNew reason => exact handled.refuse sound isNew reason
  | arrive isNew admitted isFound turned =>
      obtain ⟨_, ⟨⟩⟩ := Option.ite_none_left_eq_some.mp turned
      exact handled.arrive isNew admitted isFound rfl
  | enter isLoaded turned | resume isLoaded turned | cancel _ _ isLoaded turned =>
      exact handled.turn isLoaded (same turned (by rintro _ _ ⟨⟩))
  | ignore => exact handled

end Steps

theorem sound_of_reachable {server : ApiServer F} {allowed : ApiServer F → ApiEvent F → Prop}
    (reachable : (system state context).Reachable allowed server) :
    AllSound state context server ∧ Handled state server := by
  apply reachable.invariant
  · rintro start ⟨noRequests, noRefusals, fresh⟩
    refine ⟨fun sessionId lock isLoaded => ?_, fun n request isRequest => ?_,
      fun n refusal refused => ?_⟩
    · obtain ⟨valid, agent, rfl⟩ := fresh sessionId lock isLoaded
      exact sound_fresh valid agent
    · rw [noRequests n] at isRequest
      contradiction
    · rw [noRefusals n] at refused
      contradiction
  · rintro before event after ⟨sound, handled⟩ _ stepped
    exact ⟨sound.step stepped, handled.step sound stepped⟩

/-- **Requests are handled one at a time**: in every run of the API, whatever the requests, what
they wait for and which clients go away. -/
theorem linearized_of_reachable {server : ApiServer F}
    (reachable : (system state context).Reachable (fun _ _ => True) server) :
    Handled state server ∧ ∀ sessionId lock, server.agents sessionId = some lock →
      Linearized state context server sessionId lock := by
  obtain ⟨sound, handled⟩ := sound_of_reachable reachable
  exact ⟨handled, fun sessionId lock isLoaded => (sound sessionId lock isLoaded).linearized⟩

end ApiServer

/-! ## A note -/

noncomputable def plainContext : AgentContext ℝ where
  engine := .ofTable []
  library := realLibrary
  replies := ClientState.plainReplies
  state := plainState
  localAi := false

/-- The API with a key. -/
def keyedApi : ApiState where
  apiKey := some (text "key")
  defaultSessionId := text "default"
  enableMultiSession := true

/-- One agent is in memory. -/
noncomputable def idleServer : ApiServer ℝ where
  agents := Function.update (fun _ => none) (text "default") (some (.fresh addressAgent))
  requests _ := none
  refusals _ := none

/-- A note is taken and the memory is read, while another request has no key. -/
def notingEvents : List (ApiEvent ℝ) := [
  .request 0 ⟨some (utf8 (text "key")), none, .postMemory (text "Tea") none⟩
    (.error ⟨.loadSession, []⟩),
  .request 1 ⟨none, none, .postSave⟩ (.error ⟨.loadSession, []⟩),
  .request 2 ⟨some (utf8 (text "key")), some (text "default"), .getMemory⟩
    (.error ⟨.loadSession, []⟩),
  .enter (text "default") (.remembered (Block.replicate 16 0) 0 .written),
  .enter (text "default") .nothing]

theorem init_idleServer : (ApiServer.system keyedApi plainContext).init idleServer :=
  ApiServer.init_of_single keyedApi plainContext rfl (by decide) (fun _ => rfl) fun _ => rfl

theorem exists_noting : ∃ server lock,
    (ApiServer.system keyedApi plainContext).run idleServer notingEvents = some server ∧
      server.refusals 1 = some .unauthorized ∧ server.agents (text "default") = some lock := by
  refine ⟨_, _, rfl, rfl, rfl⟩

theorem reachable_of_noting {server : ApiServer ℝ}
    (replayed : (ApiServer.system keyedApi plainContext).run idleServer notingEvents =
      some server) :
    (ApiServer.system keyedApi plainContext).Reachable (fun _ _ => True) server :=
  System.Reachable.of_run (.start init_idleServer)
    (System.admits_of_forall (fun _ _ _ => trivial) idleServer) replayed

/-- The request without the key is refused, and the others have the lock one after the other. -/
theorem linearized_noting : ∃ server lock,
    (ApiServer.system keyedApi plainContext).run idleServer notingEvents = some server ∧
      server.refusals 1 = some .unauthorized ∧ server.agents (text "default") = some lock ∧
      Linearized keyedApi plainContext server (text "default") lock := by
  obtain ⟨server, lock, replayed, refused, isLoaded⟩ := exists_noting
  obtain ⟨_, linearized⟩ := ApiServer.linearized_of_reachable (reachable_of_noting replayed)
  exact ⟨server, lock, replayed, refused, isLoaded, linearized _ lock isLoaded⟩

end ZkLlmGateway.Client
