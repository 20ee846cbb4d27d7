import ZkLlmGateway.Client.Conversation
import ZkLlmGateway.Transition.Channel

/-!
# Streamed replies

The task of a streamed chat keeps the lock of the agent until it has sent the reply in
pieces, through a channel to the task that writes the stream.  It goes on when the
client is gone, and waits when the client is slow.
-/

namespace ZkLlmGateway.Client

open ZkLlmGateway.Encoding ZkLlmGateway.Common ZkLlmGateway.Gateway ZkLlmGateway.Transition

/-! ## Pieces -/

/-- The loop of `chunk_string`, with what is in its buffer. -/
def chunksFrom (chunkChars : Nat) : Text → Text → List Text
  | buf, [] => if buf.isEmpty then [] else [buf]
  | buf, ch :: rest =>
      let buf := buf ++ [ch]
      if buf.length ≥ chunkChars then buf :: chunksFrom chunkChars [] rest
      else chunksFrom chunkChars buf rest

def chunkString (s : Text) (chunkChars : Nat) : List Text :=
  if s.isEmpty then [] else chunksFrom chunkChars [] s

theorem flatten_chunksFrom (chunkChars : Nat) (buf s : Text) :
    (chunksFrom chunkChars buf s).flatten = buf ++ s := by
  induction s generalizing buf with
  | nil =>
      rw [chunksFrom]
      split
      next isEmpty =>
        rw [List.isEmpty_iff.mp isEmpty]
        rfl
      next => rw [List.flatten_singleton, List.append_nil]
  | cons ch rest inductionHypothesis =>
      rw [chunksFrom]
      split
      · rw [List.flatten_cons, inductionHypothesis, List.nil_append, List.append_assoc,
          List.singleton_append]
      · rw [inductionHypothesis, List.append_assoc, List.singleton_append]

/-- Nothing is lost between the pieces. -/
theorem flatten_chunkString (s : Text) (chunkChars : Nat) :
    (chunkString s chunkChars).flatten = s := by
  rw [chunkString]
  split
  next isEmpty =>
    rw [List.isEmpty_iff.mp isEmpty]
    rfl
  next => rw [flatten_chunksFrom, List.nil_append]

theorem length_of_mem_chunksFrom {chunkChars : Nat} {buf s chunk : Text}
    (short : buf.length < chunkChars) (member : chunk ∈ chunksFrom chunkChars buf s) :
    chunk ≠ [] ∧ chunk.length ≤ chunkChars := by
  induction s generalizing buf with
  | nil =>
      rw [chunksFrom] at member
      split at member
      next => exact absurd member List.not_mem_nil
      next nonempty =>
        rw [List.mem_singleton.mp member]
        exact ⟨fun isEmpty => nonempty (List.isEmpty_iff.mpr isEmpty), short.le⟩
  | cons ch rest inductionHypothesis =>
      rw [chunksFrom] at member
      simp only [List.length_append, List.length_singleton] at member
      split at member
      next full =>
        rcases List.mem_cons.mp member with rfl | later
        · refine ⟨by simp, ?_⟩
          rw [List.length_append, List.length_singleton]
          exact short
        · have empty : ([] : Text).length < chunkChars := Nat.zero_lt_of_lt short
          exact inductionHypothesis empty later
      next notFull =>
        apply inductionHypothesis _ member
        rw [List.length_append, List.length_singleton]
        exact Nat.lt_of_not_ge notFull

/-- No piece is empty or too long. -/
theorem length_of_mem_chunkString {s chunk : Text} {chunkChars : Nat} (positive : 0 < chunkChars)
    (member : chunk ∈ chunkString s chunkChars) : chunk ≠ [] ∧ chunk.length ≤ chunkChars := by
  rw [chunkString] at member
  split at member
  next => exact absurd member List.not_mem_nil
  next =>
    have empty : ([] : Text).length < chunkChars := positive
    exact length_of_mem_chunksFrom empty member

/-! ## Streams -/

inductive StreamEvent
  | start (requestId : Uuid) (sessionId : Text)
  | delta (content : Text)
  | done (ok : Bool)
  | error (error : Text)

/-- The text that an event shows. -/
def StreamEvent.shown : StreamEvent → Text
  | delta content => content
  | _ => []

/-- What is drawn and met for a stream: its id, and what causes an error of its chat. -/
structure StreamDraw where
  requestId : Uuid
  causes : SendError → List Text

/-- What is sent of an outcome. -/
def streamEvents (chunkChars : Nat) (causes : SendError → List Text) :
    Except SendError Text → List StreamEvent
  | .ok full => (chunkString full (max chunkChars 1)).map .delta ++ [.done true]
  | .error e => [.error (withCauses e.message (causes e))]

def streamCapacity : Nat := 64

/-- The stream of a chat, with what its task has yet to send. -/
structure Stream extends StreamDraw where
  sessionId : Text
  outcome : Option (Except SendError Text)
  rest : List StreamEvent
  channel : Channel StreamEvent

namespace Stream

/-- A new stream; there is room for its first event. -/
def opened (draw : StreamDraw) (sessionId : Text) : Stream where
  toStreamDraw := draw
  sessionId := sessionId
  outcome := none
  rest := []
  channel := { Channel.fresh with buffer := [.start draw.requestId sessionId] }

/-- All that has to be sent, as far as it is known. -/
def script (chunkChars : Nat) (stream : Stream) : List StreamEvent :=
  .start stream.requestId stream.sessionId ::
    stream.outcome.elim [] (streamEvents chunkChars stream.causes)

/-- The chat has its outcome. -/
def listen {F : Type} (chunkChars : Nat) (lock : AgentLock F) (n : Nat) (stream : Stream) :
    Stream :=
  match stream.outcome, lock.holder with
  | none, some ⟨task, _, _, .streamed outcome⟩ =>
      if task = n then
        { stream with
          outcome := some outcome
          rest := streamEvents chunkChars stream.causes outcome }
      else stream
  | _, _ => stream

/-- The task sends the next event. -/
def push (stream : Stream) : Option Stream :=
  match stream.rest with
  | [] => none
  | event :: rest =>
      (stream.channel.send streamCapacity event).map fun channel =>
        { stream with rest := rest, channel := channel }

/-- An event is written to the client. -/
def pull (stream : Stream) : Option Stream :=
  stream.channel.receive.map fun channel => { stream with channel := channel }

/-- The client is gone. -/
def hangUp (stream : Stream) : Stream :=
  { stream with channel := stream.channel.close }

end Stream

/-! ## The server with its streams -/

structure StreamingServer (F : Type) where
  api : ApiServer F
  streams : Nat → Option Stream

inductive StreamingEvent (F : Type)
  /-- `draw` is for the stream that begins. -/
  | api (event : ApiEvent F) (draw : StreamDraw)
  | push (n : Nat)
  | pull (n : Nat)
  | hangUp (n : Nat)

namespace StreamingServer

variable {F : Type}

/-- The lock is kept as long as there is something to send. -/
def holdsBack (server : StreamingServer F) : ApiEvent F → Bool
  | .resume sessionId .sent =>
      ((server.api.agents sessionId).bind Mutex.holder).any fun holder =>
        (server.streams holder.task).any fun stream => !stream.rest.isEmpty
  | _ => false

/-- The streams once a request has come: one that is let in has its stream. -/
def streamsAfter (state : ApiState) (server : StreamingServer F) (api : ApiServer F)
    (draw : StreamDraw) : ApiEvent F → Nat → Option Stream
  | .request n request _ =>
      match state.letIn request with
      | .ok sessionId =>
          if request.call.isStream ∧ api.refusals n = none then
            Function.update server.streams n (some (.opened draw sessionId))
          else server.streams
      | .error _ => server.streams
  | _ => server.streams

def listenAll (chunkChars : Nat) (api : ApiServer F) (streams : Nat → Option Stream) (n : Nat) :
    Option Stream :=
  (streams n).map fun stream =>
    (api.agents stream.sessionId).elim stream fun lock => stream.listen chunkChars lock n

def setStream (server : StreamingServer F) (n : Nat) (stream : Stream) : StreamingServer F :=
  { server with streams := Function.update server.streams n (some stream) }

variable [Field F] [LinearOrder F] (state : ApiState) (context : AgentContext F) (chunkChars : Nat)

def step (server : StreamingServer F) : StreamingEvent F → Option (StreamingServer F)
  | .api event draw =>
      if server.holdsBack event then none
      else (server.api.step state context event).map fun api => {
        api := api
        streams := listenAll chunkChars api (server.streamsAfter state api draw event) }
  | .push n => (server.streams n).bind fun stream => stream.push.map (server.setStream n)
  | .pull n => (server.streams n).bind fun stream => stream.pull.map (server.setStream n)
  | .hangUp n => (server.streams n).map fun stream => server.setStream n stream.hangUp

/-- Runs start without requests. -/
def system : System (StreamingServer F) (StreamingEvent F) where
  init server := (ApiServer.system state context).init server.api ∧ ∀ n, server.streams n = none
  step := step state context chunkChars

theorem step_push {server : StreamingServer F} {n : Nat} {stream next : Stream}
    (isStream : server.streams n = some stream) (pushed : stream.push = some next) :
    (system state context chunkChars).step server (.push n) = some (server.setStream n next) := by
  simp only [system, step, isStream, Option.bind_some, pushed, Option.map_some]

theorem step_pull {server : StreamingServer F} {n : Nat} {stream next : Stream}
    (isStream : server.streams n = some stream) (pulled : stream.pull = some next) :
    (system state context chunkChars).step server (.pull n) = some (server.setStream n next) := by
  simp only [system, step, isStream, Option.bind_some, pulled, Option.map_some]

variable {state context}

/-- A step under a lock, and what the streams hear of it. -/
theorem step_api (server : StreamingServer F) {event : ApiEvent F} {api : ApiServer F}
    (draw : StreamDraw) (goes : server.holdsBack event = false)
    (moved : server.api.step state context event = some api)
    (same : server.streamsAfter state api draw event = server.streams) :
    (system state context chunkChars).step server (.api event draw) =
      some ⟨api, listenAll chunkChars api server.streams⟩ := by
  simp only [system, step, goes, moved, Option.map_some, same, Bool.false_eq_true, if_false]

omit [Field F] [LinearOrder F] in
@[simp]
theorem streams_setStream (server : StreamingServer F) (n : Nat) (stream : Stream) :
    (server.setStream n stream).streams n = some stream :=
  Function.update_self ..

omit [Field F] [LinearOrder F] in
theorem listenAll_setAgent (chunkChars : Nat) {api : ApiServer F}
    {streams : Nat → Option Stream} {n : Nat} {stream : Stream} (isStream : streams n = some stream)
    (lock : AgentLock F) :
    listenAll chunkChars (api.setAgent stream.sessionId lock) streams n =
      some (stream.listen chunkChars lock n) := by
  rw [listenAll, isStream, Option.map_some, ApiServer.agents_setAgent, Option.elim_some]

end StreamingServer

/-! ## A stream and its lock -/

section Lock

variable {F : Type} [Field F] [LinearOrder F] {context : AgentContext F} {chunkChars : Nat}
  {lock next : AgentLock F} {n : Nat} {stream : Stream}

/-- Before a chat has its outcome there is nothing to send; then it has the lock until all is
sent. -/
def Expects (lock : AgentLock F) (n : Nat) (stream : Stream) : Prop :=
  match stream.outcome with
  | none => stream.rest = [] ∧ lock.results n = none
  | some outcome => (lock.results n = some (.chat outcome) ∧ stream.rest = []) ∨
      ∃ holder, lock.holder = some holder ∧ holder.task = n ∧ holder.wait = .streamed outcome

/-- The stream knows of the outcome. -/
def Knows (lock : AgentLock F) (n : Nat) (stream : Stream) : Prop :=
  stream.outcome = none → ∀ holder outcome, lock.holder = some holder → holder.task = n →
    holder.wait ≠ .streamed outcome

/-- A streamed chat does not return before it is streamed. -/
theorem waits_of_enter {agent : PersistedAgent F} {message : Text} {input : AgentInput F}
    {object : PersistedAgent F} {pause : Pause AgentWait AgentReply}
    (entered : agent.enter context (.chat message true) input = some (object, pause)) :
    ∃ wait, pause = .waits wait := by
  cases input with
  | prompted draw =>
      obtain ⟨retrieved, _, rest⟩ := Option.bind_eq_some_iff.mp entered
      obtain ⟨remoteMessages, _, stopped⟩ := Option.map_eq_some_iff.mp rest
      simp only at stopped
      split at stopped <;>
      · cases stopped
        exact ⟨_, rfl⟩
  | _ => contradiction

theorem waits_of_resume {agent middle object : PersistedAgent F} {message : Text}
    {wait : AgentWait} {input : AgentInput F} {pause : Pause AgentWait AgentReply}
    (waits : Waits context agent message true middle wait)
    (unstreamed : ∀ outcome, wait ≠ .streamed outcome)
    (resumed : middle.resume context wait input = some (object, pause)) :
    ∃ wait, pause = .waits wait := by
  cases waits with
  | reply asks =>
      cases input with
      | replied order answer write =>
          have received := Option.some.inj resumed
          rw [PersistedAgent.receive] at received
          split at received
          next =>
            cases received
            exact ⟨_, rfl⟩
          next =>
            simp only at received
            split at received <;>
            · cases received
              exact ⟨_, rfl⟩
      | _ => contradiction
  | summary asks received localAi =>
      cases input with
      | summarized summary write =>
          cases resumed
          exact ⟨_, rfl⟩
      | _ => contradiction
  | streamed isStreamed performs => exact absurd rfl (unstreamed _)

omit [Field F] [LinearOrder F] in
theorem expects_of_same (expects : Expects lock n stream) (results : next.results = lock.results)
    (holder : next.holder = lock.holder) : Expects next n stream := by
  unfold Expects at expects ⊢
  rw [results, holder]
  exact expects

omit [Field F] [LinearOrder F] in
/-- Another request has the lock and stops. -/
theorem Expects.settle (expects : Expects lock n stream)
    (others : ∀ holder, lock.holder = some holder → holder.task ≠ n) {task : Nat}
    (isOther : task ≠ n) (op : AgentOp) (inputs : List (AgentInput F)) (object : PersistedAgent F)
    (pause : Pause AgentWait AgentReply) :
    Expects (lock.settle task op inputs (object, pause)) n stream := by
  have results : (lock.settle task op inputs (object, pause)).results n = lock.results n := by
    cases pause with
    | waits wait => rfl
    | returns reply => exact Function.update_of_ne (Ne.symm isOther) ..
  unfold Expects at expects ⊢
  rw [results]
  cases isOutcome : stream.outcome with
  | none =>
      rw [isOutcome] at expects
      exact expects
  | some outcome =>
      rw [isOutcome] at expects
      rcases expects with returned | ⟨holder, isHolder, same, _⟩
      · exact .inl returned
      · exact absurd same (others holder isHolder)

omit [Field F] [LinearOrder F] in
/-- The chat itself waits on before it has its outcome. -/
theorem Expects.settle_self (expects : Expects lock n stream) (isNone : stream.outcome = none)
    {task : Nat} {op : AgentOp} {inputs : List (AgentInput F)} {object : PersistedAgent F}
    {wait : AgentWait} : Expects (lock.settle task op inputs (object, .waits wait)) n stream := by
  unfold Expects at expects ⊢
  rw [isNone] at expects ⊢
  exact expects

/-- **What a step under the lock keeps** of a stream. -/
theorem Expects.step (expects : Expects lock n stream) (knows : Knows lock n stream)
    (serialized : lock.Serialized (PersistedAgent.sections context)) {message : Text}
    (arrived : (n, .chat message true) ∈ lock.arrivals)
    {event : MutexEvent Nat AgentOp (AgentInput F)}
    (stepped : lock.step (PersistedAgent.sections context) event = some next)
    (uncancelled : event ≠ .cancel n)
    (sentAll : event = .answer .sent → ∀ holder, lock.holder = some holder → holder.task = n →
      stream.rest = []) : Expects next n stream := by
  have isChat : ∀ op, (n, op) ∈ (lock.holder.map fun holder => (holder.task, holder.op)).toList ++
      lock.queue → op = .chat message true := by
    intro op waiting
    have equal : (n, op) = (n, .chat message true) :=
      List.inj_on_of_nodup_map serialized.distinct (serialized.arrived_of_waiting waiting) arrived
        rfl
    exact (Prod.mk.inj equal).2
  -- A chat that has the lock or waits for it has not returned.
  have unreturned : ∀ op, (n, op) ∈ (lock.holder.map fun holder =>
      (holder.task, holder.op)).toList ++ lock.queue → lock.results n = none :=
    fun op waiting => serialized.results_eq_none waiting
  cases Mutex.moves_of_step stepped with
  | request => exact expects_of_same expects rfl rfl
  | withdraw => exact expects_of_same expects rfl rfl
  | @abandon holder isHolder =>
      unfold Expects at expects ⊢
      cases isOutcome : stream.outcome with
      | none =>
          rw [isOutcome] at expects
          exact expects
      | some outcome =>
          rw [isOutcome] at expects
          rcases expects with returned | ⟨other, isOther, same, _⟩
          · exact .inl returned
          · rw [isHolder] at isOther
            cases isOther
            exact absurd (by rw [same]) uncancelled
  | @enter task op rest input object pause isFree isNext entered =>
      have free : ∀ holder, lock.holder = some holder → holder.task ≠ n := by
        intro holder isHolder
        rw [isFree] at isHolder
        contradiction
      by_cases same : task = n
      · subst same
        have waiting : (task, op) ∈ (lock.holder.map fun holder =>
            (holder.task, holder.op)).toList ++ lock.queue := by
          rw [isNext]
          exact List.mem_append_right _ List.mem_cons_self
        rw [isChat op waiting] at entered
        obtain ⟨wait, rfl⟩ := waits_of_enter entered
        cases isOutcome : stream.outcome with
        | none =>
            have kept : Expects { lock with queue := rest } task stream :=
              expects_of_same expects rfl rfl
            exact kept.settle_self isOutcome
        | some outcome =>
            unfold Expects at expects
            rw [isOutcome] at expects
            rcases expects with ⟨returned, _⟩ | ⟨holder, isHolder, _⟩
            · rw [unreturned op waiting] at returned
              contradiction
            · rw [isFree] at isHolder
              contradiction
      · have kept : Expects { lock with queue := rest } n stream := expects_of_same expects rfl rfl
        exact kept.settle free same op _ object pause
  | @resume holder input object pause isHolder resumed =>
      by_cases same : holder.task = n
      · have waiting : (n, holder.op) ∈ (lock.holder.map fun holder =>
            (holder.task, holder.op)).toList ++ lock.queue := by
          rw [isHolder, ← same]
          exact List.mem_append_left _ (List.mem_singleton_self _)
        obtain ⟨middle, serial, stands⟩ := serialized.serial
        rw [isHolder] at stands
        obtain ⟨asked, streamed, isOp, waits⟩ := stops_of_executes stands
        rw [isChat holder.op waiting] at isOp
        cases isOp
        cases isOutcome : stream.outcome with
        | none =>
            have unstreamed : ∀ outcome, holder.wait ≠ .streamed outcome := fun outcome =>
              knows isOutcome holder outcome isHolder same
            obtain ⟨wait, rfl⟩ := waits_of_resume waits unstreamed resumed
            exact expects.settle_self isOutcome
        | some outcome =>
            unfold Expects at expects ⊢
            rw [isOutcome] at expects ⊢
            rcases expects with ⟨returned, _⟩ | ⟨other, isOther, _, isWait⟩
            · rw [unreturned holder.op waiting] at returned
              contradiction
            · rw [isHolder] at isOther
              cases isOther
              rw [isWait] at resumed
              cases input with
              | sent =>
                  cases resumed
                  refine .inl ⟨?_, sentAll rfl holder isHolder same⟩
                  rw [← same]
                  exact Function.update_self ..
              | _ => contradiction
      · apply expects.settle _ same
        intro other isOther
        rw [isHolder] at isOther
        cases isOther
        exact same

omit [Field F] [LinearOrder F] in
/-- A stream either learns of the outcome or need not. -/
theorem listen_cases (chunkChars : Nat) (lock : AgentLock F) (n : Nat) (stream : Stream) :
    (stream.listen chunkChars lock n = stream ∧ Knows lock n stream) ∨
    ∃ outcome, stream.outcome = none ∧
      (∃ holder, lock.holder = some holder ∧ holder.task = n ∧ holder.wait = .streamed outcome) ∧
      stream.listen chunkChars lock n =
        { stream with
          outcome := some outcome
          rest := streamEvents chunkChars stream.causes outcome } := by
  cases isOutcome : stream.outcome with
  | some outcome =>
      refine .inl ⟨by simp only [Stream.listen, isOutcome], fun isNone => ?_⟩
      rw [isOutcome] at isNone
      contradiction
  | none =>
      cases isHolder : lock.holder with
      | none =>
          refine .inl ⟨by simp only [Stream.listen, isOutcome, isHolder], ?_⟩
          intro _ holder outcome isSome
          rw [isHolder] at isSome
          contradiction
      | some holder =>
          obtain ⟨task, op, inputs, wait⟩ := holder
          cases wait with
          | streamed outcome =>
              by_cases same : task = n
              · right
                refine ⟨outcome, rfl, ⟨_, rfl, same, rfl⟩, ?_⟩
                simp only [Stream.listen, isOutcome, isHolder, if_pos same]
              · refine .inl ⟨by simp only [Stream.listen, isOutcome, isHolder, if_neg same], ?_⟩
                intro _ holder other isSome isTask
                rw [isHolder] at isSome
                cases isSome
                exact absurd isTask same
          | _ =>
              refine .inl ⟨by simp only [Stream.listen, isOutcome, isHolder], ?_⟩
              intro _ holder other isSome _ isWait
              rw [isHolder] at isSome
              cases isSome
              contradiction

/-- Where a stream stands with the lock of its session. -/
structure Standing (chunkChars : Nat) (lock : AgentLock F) (n : Nat) (stream : Stream) : Prop where
  arrived : ∃ message, (n, .chat message true) ∈ lock.arrivals
  expects : Expects lock n stream
  knows : Knows lock n stream
  carries : stream.channel.Carries streamCapacity (stream.script chunkChars) stream.rest

omit [Field F] [LinearOrder F] in
/-- A stream that listens stands well. -/
theorem standing_listen (arrived : ∃ message, (n, .chat message true) ∈ lock.arrivals)
    (expects : Expects lock n stream)
    (carries : stream.channel.Carries streamCapacity (stream.script chunkChars) stream.rest) :
    Standing chunkChars lock n (stream.listen chunkChars lock n) := by
  rcases listen_cases chunkChars lock n stream with ⟨same, knows⟩ | ⟨outcome, isNone, waits, same⟩
  · rw [same]
    exact ⟨arrived, expects, knows, carries⟩
  · rw [same]
    refine ⟨arrived, .inr waits, fun isNone => by contradiction, ?_⟩
    unfold Expects at expects
    rw [isNone] at expects
    have extended := carries.extend (streamEvents chunkChars stream.causes outcome)
    rw [expects.1, List.nil_append, Stream.script, isNone] at extended
    exact extended

theorem Standing.step (standing : Standing chunkChars lock n stream)
    (serialized : lock.Serialized (PersistedAgent.sections context))
    {event : MutexEvent Nat AgentOp (AgentInput F)}
    (stepped : lock.step (PersistedAgent.sections context) event = some next)
    (uncancelled : event ≠ .cancel n)
    (sentAll : event = .answer .sent → ∀ holder, lock.holder = some holder → holder.task = n →
      stream.rest = []) :
    (∃ message, (n, .chat message true) ∈ next.arrivals) ∧ Expects next n stream := by
  obtain ⟨message, arrived⟩ := standing.arrived
  refine ⟨⟨message, ?_⟩,
    standing.expects.step standing.knows serialized arrived stepped uncancelled sentAll⟩
  rcases Mutex.arrivals_of_step stepped with same | ⟨_, _, _, same⟩
  · rw [same]
    exact arrived
  · rw [same]
    exact List.mem_append_left _ arrived

end Lock

/-! ## The invariant -/

namespace StreamingServer

variable {F : Type} [Field F] [LinearOrder F] {state : ApiState} {context : AgentContext F}
  {chunkChars : Nat}

/-- Where the stream of a request stands. -/
structure Tracked (chunkChars : Nat) (api : ApiServer F) (n : Nat) (stream : Stream)
    (lock : AgentLock F) : Prop where
  isLoaded : api.agents stream.sessionId = some lock
  isStream : ∃ request, api.requests n = some request ∧ request.call.isStream = true
  standing : Standing chunkChars lock n stream

/-- Every streamed chat that is let in has a stream that stands well. -/
structure Sound (state : ApiState) (context : AgentContext F) (chunkChars : Nat)
    (server : StreamingServer F) : Prop where
  agents : server.api.AllSound state context
  handled : server.api.Handled state
  tracked : ∀ n stream, server.streams n = some stream →
    ∃ lock, Tracked chunkChars server.api n stream lock
  begun : ∀ sessionId lock n message, server.api.agents sessionId = some lock →
    (n, .chat message true) ∈ lock.arrivals → (server.streams n).isSome = true

section Steps

variable {server target : StreamingServer F} {api next : ApiServer F} {n : Nat}
  {stream : Stream} {lock : AgentLock F} {event : ApiEvent F}

/-- A request keeps its entry. -/
theorem requests_of_moves {request : ApiRequest}
    (moves : ApiServer.Moves state context api event next)
    (isRequest : api.requests n = some request) :
    next.requests n = some request := by
  have kept : ∀ (m : Nat) (other : ApiRequest), api.requests m = none →
      Function.update api.requests m (some other) n = some request := by
    intro m other isNew
    rw [Function.update_of_ne]
    · exact isRequest
    · rintro rfl
      rw [isNew] at isRequest
      contradiction
  cases moves with
  | refuse isNew reason => exact kept _ _ isNew
  | arrive isNew admitted isFound turned => exact kept _ _ isNew
  | _ => exact isRequest

/-- What a step of the API leaves of the stream of a request. -/
theorem Tracked.moves (tracked : Tracked chunkChars api n stream lock)
    (sound : api.AllSound state context) (moves : ApiServer.Moves state context api event next)
    (sentAll : event = .resume stream.sessionId .sent → ∀ holder, lock.holder = some holder →
      holder.task = n → stream.rest = []) :
    ∃ after, next.agents stream.sessionId = some after ∧
      (∃ message, (n, .chat message true) ∈ after.arrivals) ∧ Expects after n stream := by
  obtain ⟨isLoaded, ⟨request, isRequest, isStream⟩, standing⟩ := tracked
  have serialized := (sound _ lock isLoaded).serialized
  have still : ∀ {after : ApiServer F}, after.agents stream.sessionId = some lock →
      ∃ same, after.agents stream.sessionId = some same ∧
        (∃ message, (n, .chat message true) ∈ same.arrivals) ∧ Expects same n stream :=
    fun isSame => ⟨lock, isSame, standing.arrived, standing.expects⟩
  have goes : ∀ {before : ApiServer F} {sessionId : Text} {old after : AgentLock F}
      {turn : MutexEvent Nat AgentOp (AgentInput F)},
      before.agents stream.sessionId = some lock →
      (sessionId = stream.sessionId → old = lock) →
      old.step (PersistedAgent.sections context) turn = some after → turn ≠ .cancel n →
      (sessionId = stream.sessionId → turn = .answer .sent → ∀ holder,
        lock.holder = some holder → holder.task = n → stream.rest = []) →
      ∃ final, (before.setAgent sessionId after).agents stream.sessionId = some final ∧
        (∃ message, (n, .chat message true) ∈ final.arrivals) ∧ Expects final n stream := by
    intro before sessionId old after turn isSame isOld turned uncancelled allSent
    by_cases same : sessionId = stream.sessionId
    · rw [isOld same] at turned
      refine ⟨after, ?_, standing.step serialized turned uncancelled (allSent same)⟩
      rw [same]
      exact Function.update_self ..
    · apply still
      exact (Function.update_of_ne (Ne.symm same) ..).trans isSame
  cases moves with
  | refuse isNew reason => exact still isLoaded
  | arrive isNew admitted isFound turned =>
      apply goes isLoaded _ turned (by rintro ⟨⟩) (by rintro _ ⟨⟩)
      rintro rfl
      rcases ApiServer.getOrLoad_cases isFound with isOld | ⟨unloaded, _⟩
      · rw [isLoaded] at isOld
        exact (Option.some.inj isOld).symm
      · rw [isLoaded] at unloaded
        contradiction
  | enter isOld turned =>
      apply goes isLoaded _ turned (by rintro ⟨⟩) (by rintro _ ⟨⟩)
      rintro rfl
      rw [isLoaded] at isOld
      exact (Option.some.inj isOld).symm
  | resume isOld turned =>
      apply goes isLoaded _ turned (by rintro ⟨⟩)
      · rintro rfl ⟨⟩
        exact sentAll rfl
      · rintro rfl
        rw [isLoaded] at isOld
        exact (Option.some.inj isOld).symm
  | cancel isOther unstreamed isOld turned =>
      apply goes isLoaded _ turned _ (by rintro _ ⟨⟩)
      · rintro rfl
        rw [isLoaded] at isOld
        exact (Option.some.inj isOld).symm
      · rintro ⟨⟩
        rw [isRequest] at isOther
        cases isOther
        rw [isStream] at unstreamed
        contradiction
  | ignore => exact still isLoaded

/-- A request that has come to a lock was there before, or has come now. -/
theorem arrived_of_moves (moves : ApiServer.Moves state context api event next)
    {sessionId : Text} {after : AgentLock F} (isLoaded : next.agents sessionId = some after)
    {op : AgentOp} (arrived : (n, op) ∈ after.arrivals) :
    (∃ before, api.agents sessionId = some before ∧ (n, op) ∈ before.arrivals) ∨
    ∃ request found, event = .request n request found ∧ state.letIn request = .ok sessionId ∧
      request.call.op sessionId = op ∧ next.refusals n = api.refusals n ∧
      api.requests n = none := by
  have goes : ∀ {before old : AgentLock F} {other : Text}
      {turn : MutexEvent Nat AgentOp (AgentInput F)},
      (api.setAgent other old).agents sessionId = some after →
      api.agents other = some before → (∀ n op, turn ≠ .request n op) →
      before.step (PersistedAgent.sections context) turn = some old →
      ∃ before, api.agents sessionId = some before ∧ (n, op) ∈ before.arrivals := by
    intro before old other turn isAfter isBefore noRequest turned
    simp only [ApiServer.setAgent, Function.update_apply] at isAfter
    split at isAfter
    next same =>
      cases isAfter
      rw [same]
      rcases Mutex.arrivals_of_step turned with kept | ⟨m, other, isRequest, _⟩
      · rw [kept] at arrived
        exact ⟨before, isBefore, arrived⟩
      · exact absurd isRequest (noRequest m other)
    next => exact ⟨after, isAfter, arrived⟩
  cases moves with
  | refuse isNew reason => exact .inl ⟨after, isLoaded, arrived⟩
  | @arrive m request found other lock new isNew admitted isFound turned =>
      simp only [ApiServer.setAgent, Function.update_apply] at isLoaded
      split at isLoaded
      next same =>
        cases isLoaded
        rw [same]
        obtain ⟨_, ⟨⟩⟩ := Option.ite_none_left_eq_some.mp turned
        rcases List.mem_append.mp arrived with before | isLast
        · rcases ApiServer.getOrLoad_cases isFound with isOld | ⟨_, agent, rfl⟩
          · exact .inl ⟨lock, isOld, before⟩
          · exact absurd before List.not_mem_nil
        · cases List.mem_singleton.mp isLast
          exact .inr ⟨request, found, rfl, admitted, rfl, rfl, isNew⟩
      next => exact .inl ⟨after, isLoaded, arrived⟩
  | enter isOld turned => exact .inl (goes isLoaded isOld (by rintro _ _ ⟨⟩) turned)
  | resume isOld turned => exact .inl (goes isLoaded isOld (by rintro _ _ ⟨⟩) turned)
  | cancel _ _ isOld turned => exact .inl (goes isLoaded isOld (by rintro _ _ ⟨⟩) turned)
  | ignore => exact .inl ⟨after, isLoaded, arrived⟩

/-- A request for a stream that has come to its lock waits there. -/
theorem waiting_of_moves {request : ApiRequest} {found : Except Failure (PersistedAgent F)}
    (moves : ApiServer.Moves state context api (.request n request found) next)
    (sound : next.AllSound state context) {sessionId : Text}
    (admitted : state.letIn request = .ok sessionId) (isStream : request.call.isStream = true)
    (unrefused : next.refusals n = none) :
    ∃ after, next.agents sessionId = some after ∧ next.requests n = some request ∧
      (∃ message, (n, .chat message true) ∈ after.arrivals) ∧ after.results n = none := by
  have isChat : ∃ message, request.call.op sessionId = .chat message true := by
    cases isCall : request.call with
    | postChatStream message => exact ⟨message, rfl⟩
    | _ =>
        rw [isCall] at isStream
        contradiction
  obtain ⟨message, isOp⟩ := isChat
  cases moves with
  | refuse isNew reason =>
      simp [ApiServer.refuse] at unrefused
  | @arrive _ _ _ other lock after isNew isAdmitted isFound turned =>
      rw [admitted] at isAdmitted
      cases isAdmitted
      have isLoaded : ((api.setRequest n request).setAgent sessionId after).agents sessionId =
          some after := Function.update_self ..
      refine ⟨after, isLoaded, Function.update_self .., ?_⟩
      have serialized := (sound sessionId after isLoaded).serialized
      obtain ⟨_, ⟨⟩⟩ := Option.ite_none_left_eq_some.mp turned
      rw [isOp] at serialized ⊢
      have waits : (n, AgentOp.chat message true) ∈ (lock.holder.map fun holder =>
          (holder.task, holder.op)).toList ++ (lock.queue ++ [(n, .chat message true)]) :=
        List.mem_append_right _ (List.mem_append_right _ (List.mem_singleton_self _))
      exact ⟨⟨message, List.mem_append_right _ (List.mem_singleton_self _)⟩,
        serialized.results_eq_none waits⟩

omit [Field F] [LinearOrder F] in
theorem carries_opened (chunkChars : Nat) (draw : StreamDraw) (sessionId : Text) :
    (Stream.opened draw sessionId).channel.Carries streamCapacity
      ((Stream.opened draw sessionId).script chunkChars) [] where
  isPrefix := List.prefix_refl _
  whole _ := rfl
  bounded := by
    change 1 ≤ 64
    decide

omit [Field F] [LinearOrder F] in
theorem sessionId_listen (chunkChars : Nat) (lock : AgentLock F) (n : Nat) (stream : Stream) :
    (stream.listen chunkChars lock n).sessionId = stream.sessionId := by
  rcases listen_cases chunkChars lock n stream with ⟨same, _⟩ | ⟨outcome, _, _, same⟩
  · rw [same]
  · rw [same]

omit [Field F] [LinearOrder F] in
/-- A stream is there already, or begins. -/
theorem streamsAfter_cases {draw : StreamDraw}
    (isStream : server.streamsAfter state next draw event n = some stream) :
    server.streams n = some stream ∨ ∃ request found sessionId, event = .request n request found ∧
      state.letIn request = .ok sessionId ∧ request.call.isStream = true ∧
      next.refusals n = none ∧ stream = .opened draw sessionId := by
  cases event with
  | request m request found =>
      cases admitted : state.letIn request with
      | error refusal =>
          simp only [streamsAfter, admitted] at isStream
          exact .inl isStream
      | ok sessionId =>
          simp only [streamsAfter, admitted] at isStream
          split at isStream
          next opens =>
            rw [Function.update_apply] at isStream
            split at isStream
            next same =>
              subst same
              cases isStream
              exact .inr ⟨request, found, sessionId, rfl, admitted, opens.1, opens.2, rfl⟩
            next => exact .inl isStream
          next => exact .inl isStream
  | _ => exact .inl isStream

omit [Field F] [LinearOrder F] in
theorem isSome_streamsAfter {draw : StreamDraw} (isSome : (server.streams n).isSome = true) :
    (server.streamsAfter state next draw event n).isSome = true := by
  cases event with
  | request m request found =>
      cases admitted : state.letIn request with
      | error refusal =>
          simp only [streamsAfter, admitted]
          exact isSome
      | ok sessionId =>
          simp only [streamsAfter, admitted]
          split
          · rw [Function.update_apply]
            split
            · rfl
            · exact isSome
          · exact isSome
  | _ => exact isSome

omit [Field F] [LinearOrder F] in
/-- The lock is given back when all is sent. -/
theorem rest_eq_nil_of_goes (goes : server.holdsBack event = false)
    (isStream : server.streams n = some stream)
    (isLoaded : server.api.agents stream.sessionId = some lock)
    (resumes : event = .resume stream.sessionId .sent) {holder : Holder Nat AgentOp (AgentInput F)
      AgentWait} (isHolder : lock.holder = some holder) (isTask : holder.task = n) :
    stream.rest = [] := by
  subst resumes
  simp only [holdsBack, isLoaded, Option.bind_some, isHolder, isTask, isStream, Option.any_some,
    Bool.not_eq_false', List.isEmpty_iff] at goes
  exact goes

/-- A step of the API. -/
theorem Sound.onApi (sound : Sound state context chunkChars server) {draw : StreamDraw}
    (goes : server.holdsBack event = false)
    (stepped : server.api.step state context event = some next) :
    Sound state context chunkChars {
      api := next
      streams := listenAll chunkChars next (server.streamsAfter state next draw event) } := by
  have moves := ApiServer.moves_of_step stepped
  have agents := sound.agents.step stepped
  refine ⟨agents, sound.handled.step sound.agents stepped, fun n stream isStream => ?_,
    fun sessionId lock n message isLoaded arrived => ?_⟩
  · obtain ⟨before, isBefore, rfl⟩ := Option.map_eq_some_iff.mp isStream
    have ready : ∃ after, next.agents before.sessionId = some after ∧
        (∃ message, (n, .chat message true) ∈ after.arrivals) ∧ Expects after n before ∧
        before.channel.Carries streamCapacity (before.script chunkChars) before.rest ∧
        ∃ request, next.requests n = some request ∧ request.call.isStream = true := by
      rcases streamsAfter_cases isBefore with isOld |
        ⟨request, found, sessionId, rfl, admitted, streamed, unrefused, rfl⟩
      · obtain ⟨lock, tracked⟩ := sound.tracked n before isOld
        obtain ⟨after, isAfter, arrived, expects⟩ := tracked.moves sound.agents moves
          fun resumes holder isHolder isTask =>
            rest_eq_nil_of_goes goes isOld tracked.isLoaded resumes isHolder isTask
        obtain ⟨request, isRequest, streamed⟩ := tracked.isStream
        exact ⟨after, isAfter, arrived, expects, tracked.standing.carries, request,
          requests_of_moves moves isRequest, streamed⟩
      · obtain ⟨after, isAfter, isRequest, arrived, unreturned⟩ :=
          waiting_of_moves moves agents admitted streamed unrefused
        exact ⟨after, isAfter, arrived, ⟨rfl, unreturned⟩, carries_opened chunkChars draw
          sessionId, request, isRequest, streamed⟩
    obtain ⟨after, isAfter, arrived, expects, carries, isStream⟩ := ready
    rw [isAfter, Option.elim_some]
    refine ⟨after, ?_, isStream, standing_listen arrived expects carries⟩
    rw [sessionId_listen]
    exact isAfter
  · simp only [listenAll, Option.isSome_map]
    rcases arrived_of_moves moves isLoaded arrived with ⟨before, isBefore, was⟩ |
      ⟨request, found, rfl, admitted, isOp, same, isNew⟩
    · exact isSome_streamsAfter (sound.begun sessionId before n message isBefore was)
    · have unrefused : next.refusals n = none := by
        rw [same]
        exact sound.handled.unrefused_of_new isNew
      rw [streamsAfter]
      simp only [admitted, ApiServer.isStream_of_op isOp, unrefused, and_self, if_true,
        Function.update_self, Option.isSome_some]

/-- A step of a stream on its own. -/
theorem Sound.setStream (sound : Sound state context chunkChars server) {after : Stream}
    (isStream : server.streams n = some stream) (sessionId : after.sessionId = stream.sessionId)
    (stands : ∀ lock : AgentLock F,
      Standing chunkChars lock n stream → Standing chunkChars lock n after) :
    Sound state context chunkChars (server.setStream n after) := by
  refine ⟨sound.agents, sound.handled, fun other otherStream isOther => ?_,
    fun sessionId lock other message isLoaded arrived => ?_⟩
  · simp only [StreamingServer.setStream, Function.update_apply] at isOther
    split at isOther
    next same =>
      cases isOther
      obtain ⟨lock, isLoaded, isRequest, standing⟩ := sound.tracked n stream isStream
      rw [same]
      refine ⟨lock, ?_, isRequest, stands lock standing⟩
      rw [sessionId]
      exact isLoaded
    next => exact sound.tracked other otherStream isOther
  · simp only [StreamingServer.setStream, Function.update_apply]
    split
    · rfl
    · exact sound.begun sessionId lock other message isLoaded arrived

omit [Field F] [LinearOrder F] in
/-- What is sent is not to be sent any more. -/
theorem standing_push {after : Stream} (pushed : stream.push = some after) (lock : AgentLock F)
    (standing : Standing chunkChars lock n stream) : Standing chunkChars lock n after := by
  obtain ⟨arrived, expects, knows, carries⟩ := standing
  unfold Stream.push at pushed
  split at pushed
  next => contradiction
  next event rest isRest =>
    obtain ⟨channel, sends, rfl⟩ := Option.map_eq_some_iff.mp pushed
    rw [isRest] at carries
    refine ⟨arrived, ?_, knows, carries.send sends⟩
    unfold Expects at expects ⊢
    cases isOutcome : stream.outcome with
    | none =>
        rw [isOutcome, isRest] at expects
        exact absurd expects.1 (List.cons_ne_nil _ _)
    | some outcome =>
        rw [isOutcome, isRest] at expects
        rcases expects with ⟨_, isEmpty⟩ | held
        · exact absurd isEmpty (List.cons_ne_nil _ _)
        · exact .inr held

theorem Sound.step (sound : Sound state context chunkChars server) {event : StreamingEvent F}
    (stepped : server.step state context chunkChars event = some target) :
    Sound state context chunkChars target := by
  cases event with
  | api event draw =>
      obtain ⟨goes, rest⟩ := Option.ite_none_left_eq_some.mp stepped
      obtain ⟨next, moved, rfl⟩ := Option.map_eq_some_iff.mp rest
      exact sound.onApi (by simpa using goes) moved
  | push n =>
      obtain ⟨stream, isStream, rest⟩ := Option.bind_eq_some_iff.mp stepped
      obtain ⟨after, pushed, rfl⟩ := Option.map_eq_some_iff.mp rest
      apply sound.setStream isStream _ (standing_push pushed)
      unfold Stream.push at pushed
      split at pushed
      next => contradiction
      next =>
        obtain ⟨channel, _, rfl⟩ := Option.map_eq_some_iff.mp pushed
        rfl
  | pull n =>
      obtain ⟨stream, isStream, rest⟩ := Option.bind_eq_some_iff.mp stepped
      obtain ⟨after, pulled, rfl⟩ := Option.map_eq_some_iff.mp rest
      obtain ⟨channel, receives, rfl⟩ := Option.map_eq_some_iff.mp pulled
      have same : ({ stream with channel := channel } : Stream).sessionId = stream.sessionId := rfl
      apply sound.setStream isStream same
      rintro lock ⟨arrived, expects, knows, carries⟩
      exact ⟨arrived, expects, knows, carries.receive receives⟩
  | hangUp n =>
      obtain ⟨stream, isStream, rfl⟩ := Option.map_eq_some_iff.mp stepped
      have same : stream.hangUp.sessionId = stream.sessionId := rfl
      apply sound.setStream isStream same
      rintro lock ⟨arrived, expects, knows, carries⟩
      exact ⟨arrived, expects, knows, carries.close⟩

end Steps

theorem sound_of_reachable {server : StreamingServer F}
    {allowed : StreamingServer F → StreamingEvent F → Prop}
    (reachable : (system state context chunkChars).Reachable allowed server) :
    Sound state context chunkChars server := by
  apply reachable.invariant
  · rintro start ⟨isInitial, noStreams⟩
    obtain ⟨agents, handled⟩ := ApiServer.sound_of_reachable
      (System.Reachable.start isInitial : (ApiServer.system state context).Reachable
        (fun _ _ => True) start.api)
    refine ⟨agents, handled, fun n stream isStream => ?_,
      fun sessionId lock n message isLoaded arrived => ?_⟩
    · rw [noStreams n] at isStream
      contradiction
    · obtain ⟨_, agent, rfl⟩ := isInitial.2.2 sessionId lock isLoaded
      exact absurd arrived List.not_mem_nil
  · rintro before event after sound _ stepped
    exact sound.step stepped

end StreamingServer

end ZkLlmGateway.Client
