import ZkLlmGateway.Client.Streaming

/-!
# What becomes of a streamed chat

Its client sees the reply from its beginning, and all of it when it sees the end.  The
reply is in the session by then.  The lock is free again once the reply is sent, and a
client that goes away only lets this happen sooner.
-/

namespace ZkLlmGateway.Client

open ZkLlmGateway.Encoding ZkLlmGateway.Common ZkLlmGateway.Gateway ZkLlmGateway.Transition

/-! ## What the events show -/

section Script

variable {chunkChars : Nat}

theorem shown_streamEvents (chunkChars : Nat) (causes : SendError → List Text)
    (outcome : Except SendError Text) :
    (streamEvents chunkChars causes outcome).flatMap StreamEvent.shown =
      outcome.toOption.getD [] := by
  cases outcome with
  | error problem => rfl
  | ok full =>
      have pieces : ∀ chunks : List Text,
          (chunks.map StreamEvent.delta).flatMap StreamEvent.shown = chunks.flatten := by
        intro chunks
        rw [List.flatMap_map]
        exact List.flatMap_id
      rw [streamEvents, List.flatMap_append, pieces, flatten_chunkString]
      exact List.append_nil full

/-- The script shows the reply. -/
theorem shown_script (chunkChars : Nat) (stream : Stream) :
    (stream.script chunkChars).flatMap StreamEvent.shown =
      (stream.outcome.bind Except.toOption).getD [] := by
  rw [Stream.script, List.flatMap_cons]
  cases stream.outcome with
  | none => rfl
  | some outcome => exact shown_streamEvents chunkChars stream.causes outcome

/-- Only the end of a script tells that the reply is done. -/
theorem eq_script_of_done {stream : Stream} {events : List StreamEvent}
    (isPrefix : events <+: stream.script chunkChars) (done : .done true ∈ events) :
    events = stream.script chunkChars ∧ ∃ full, stream.outcome = some (.ok full) := by
  unfold Stream.script at isPrefix ⊢
  cases isOutcome : stream.outcome with
  | none =>
      rw [isOutcome] at isPrefix
      have member := isPrefix.mem done
      simp at member
  | some outcome =>
      rw [isOutcome] at isPrefix
      cases outcome with
      | error problem =>
          have member := isPrefix.mem done
          simp [streamEvents] at member
      | ok full =>
          refine ⟨?_, full, rfl⟩
          rw [Option.elim_some, streamEvents, ← List.cons_append] at isPrefix
          rcases List.prefix_concat_iff.mp isPrefix with whole | shorter
          · exact whole
          · have member := shorter.mem done
            simp at member

/-- The pieces of the reply are not empty and not too long. -/
theorem length_of_mem_script {stream : Stream} {content : Text}
    (member : .delta content ∈ stream.script chunkChars) :
    content ≠ [] ∧ content.length ≤ max chunkChars 1 := by
  unfold Stream.script at member
  cases isOutcome : stream.outcome with
  | none =>
      rw [isOutcome] at member
      simp at member
  | some outcome =>
      rw [isOutcome] at member
      cases outcome with
      | error problem => simp [streamEvents] at member
      | ok full =>
          have isPiece : content ∈ chunkString full (max chunkChars 1) := by
            simpa [streamEvents] using member
          exact length_of_mem_chunkString (Nat.le_max_right chunkChars 1) isPiece

end Script

/-! ## What a client sees -/

/-- How a streamed chat stands with what its client has seen of it. -/
structure Streamed {F : Type} (chunkChars : Nat) (lock : AgentLock F) (n : Nat)
    (stream : Stream) : Prop where
  /-- Nothing is lost or out of order while the client is there. -/
  unlost : stream.channel.isOpen = true →
    stream.channel.received ++ stream.channel.buffer ++ stream.rest = stream.script chunkChars
  received : stream.channel.received <+: stream.script chunkChars
  bounded : stream.channel.buffer.length ≤ streamCapacity
  shown : stream.channel.received.flatMap StreamEvent.shown <+:
    (stream.outcome.bind Except.toOption).getD []
  pieces : ∀ content, .delta content ∈ stream.channel.received →
    content ≠ [] ∧ content.length ≤ max chunkChars 1
  done : .done true ∈ stream.channel.received →
    stream.outcome = some (.ok (stream.channel.received.flatMap StreamEvent.shown))
  /-- The lock is kept as long as there is something to send. -/
  exclusive : stream.rest ≠ [] → ∃ holder, lock.holder = some holder ∧ holder.task = n
  /-- The reply is in the session before it is sent. -/
  stored : ∀ full, stream.outcome = some (.ok full) →
    assistantMessage full ∈ lock.object.session.messages
  replied : ∀ reply, lock.results n = some reply →
    ∃ outcome, reply = .chat outcome ∧ stream.outcome = some outcome ∧ stream.rest = []

section Seen

variable {F : Type} [Field F] [LinearOrder F] {state : ApiState} {context : AgentContext F}
  {chunkChars : Nat} {api : ApiServer F} {sessionId : Text} {lock : AgentLock F} {n : Nat}
  {stream : Stream}

/-- A chat that has its answer has stored it. -/
theorem stored_of_performs {agent next : PersistedAgent F} {op : AgentOp} {full : Text}
    (performs : Performs context agent op next (.chat (.ok full))) :
    assistantMessage full ∈ next.session.messages := by
  obtain ⟨exchanges, adds, same⟩ := performs.exchanges 0
  obtain ⟨exchange, member, _, isAnswer⟩ := adds.answers (.ok full) rfl
  rw [same]
  apply List.mem_append_right
  apply List.mem_flatMap.mpr
  refine ⟨exchange, member, ?_⟩
  rw [Exchange.messages, isAnswer]
  exact List.mem_cons_of_mem _ (List.mem_singleton_self _)

theorem stored_of_waits {agent next : PersistedAgent F} {message : Text} {streamed : Bool}
    {full : Text} (waits : Waits context agent message streamed next (.streamed (.ok full))) :
    assistantMessage full ∈ next.session.messages := by
  cases waits with
  | streamed isStreamed performs => exact stored_of_performs performs

theorem stored_of_expects (linearized : Linearized state context api sessionId lock)
    (expects : Expects lock n stream) {full : Text} (isOutcome : stream.outcome = some (.ok full)) :
    assistantMessage full ∈ lock.object.session.messages := by
  unfold Expects at expects
  rw [isOutcome] at expects
  rcases expects with ⟨returned, _⟩ | ⟨holder, isHolder, _, isWait⟩
  · obtain ⟨exchanges, same, _, answered⟩ := linearized.recorded.conversation
    obtain ⟨exchange, member, _, isAnswer⟩ := answered n (.ok full) returned
    rw [same]
    apply List.mem_append_right
    apply List.mem_flatMap.mpr
    refine ⟨exchange, member, ?_⟩
    rw [Exchange.messages, isAnswer]
    exact List.mem_cons_of_mem _ (List.mem_singleton_self _)
  · obtain ⟨_, middle, _, inProgress, _⟩ := linearized.sequential
    rw [isHolder] at inProgress
    obtain ⟨message, streamed, _, waits⟩ := inProgress
    rw [isWait] at waits
    exact stored_of_waits waits

omit [Field F] [LinearOrder F] in
theorem exclusive_of_expects (expects : Expects lock n stream) (unsent : stream.rest ≠ []) :
    ∃ holder, lock.holder = some holder ∧ holder.task = n := by
  unfold Expects at expects
  split at expects
  next => exact absurd expects.1 unsent
  next =>
    rcases expects with ⟨_, sent⟩ | ⟨holder, isHolder, isTask, _⟩
    · exact absurd sent unsent
    · exact ⟨holder, isHolder, isTask⟩

theorem replied_of_expects (serialized : lock.Serialized (PersistedAgent.sections context))
    (expects : Expects lock n stream) {reply : AgentReply}
    (returned : lock.results n = some reply) :
    ∃ outcome, reply = .chat outcome ∧ stream.outcome = some outcome ∧ stream.rest = [] := by
  unfold Expects at expects
  split at expects
  next =>
    rw [expects.2] at returned
    contradiction
  next outcome isOutcome =>
    rcases expects with ⟨same, sent⟩ | ⟨holder, isHolder, isTask, _⟩
    · rw [same] at returned
      exact ⟨outcome, (Option.some.inj returned).symm, isOutcome, sent⟩
    · have waiting : (n, holder.op) ∈ (lock.holder.map fun holder =>
          (holder.task, holder.op)).toList ++ lock.queue := by
        rw [isHolder, ← isTask]
        exact List.mem_append_left _ (List.mem_singleton_self _)
      rw [serialized.results_eq_none waiting] at returned
      contradiction

theorem Standing.streamed (standing : Standing chunkChars lock n stream)
    (serialized : lock.Serialized (PersistedAgent.sections context))
    (linearized : Linearized state context api sessionId lock) :
    Streamed chunkChars lock n stream := by
  have received := standing.carries.received_prefix
  refine ⟨standing.carries.whole, received, standing.carries.bounded, ?_, ?_, ?_, ?_, ?_, ?_⟩
  · rw [← shown_script chunkChars]
    exact received.flatMap _
  · exact fun content member => length_of_mem_script (received.mem member)
  · intro done
    obtain ⟨whole, full, isOutcome⟩ := eq_script_of_done received done
    rw [whole, shown_script, isOutcome]
    rfl
  · exact exclusive_of_expects standing.expects
  · exact fun full isOutcome => stored_of_expects linearized standing.expects isOutcome
  · exact fun reply returned => replied_of_expects serialized standing.expects returned

namespace StreamingServer

variable {server : StreamingServer F}

/-- **A streamed chat shows its reply in order**, in every run of the server: every request for a
stream that is let in has one, for its session. -/
theorem streamed_of_reachable
    (reachable : (system state context chunkChars).Reachable (fun _ _ => True) server)
    {request : ApiRequest} (isRequest : server.api.requests n = some request)
    (isStream : request.call.isStream = true) (unrefused : server.api.refusals n = none) :
    ∃ stream lock, server.streams n = some stream ∧
      state.letIn request = .ok stream.sessionId ∧
      server.api.agents stream.sessionId = some lock ∧ Streamed chunkChars lock n stream := by
  have sound := sound_of_reachable reachable
  obtain ⟨sessionId, lock, admitted, isLoaded, arrived⟩ :=
    sound.handled.arrives n request isRequest unrefused
  have isChat : ∃ message, request.call.op sessionId = .chat message true := by
    cases isCall : request.call with
    | postChatStream message => exact ⟨message, rfl⟩
    | _ =>
        rw [isCall] at isStream
        contradiction
  obtain ⟨message, isOp⟩ := isChat
  rw [isOp] at arrived
  obtain ⟨stream, isSome⟩ := Option.isSome_iff_exists.mp
    (sound.begun sessionId lock n message isLoaded arrived)
  obtain ⟨other, tracked⟩ := sound.tracked n stream isSome
  obtain ⟨otherMessage, otherArrived⟩ := tracked.standing.arrived
  have agents := sound.agents _ other tracked.isLoaded
  obtain ⟨same, isSame, isAdmitted, _⟩ := agents.admitted n _ otherArrived
  rw [isRequest] at isSame
  cases isSame
  exact ⟨stream, other, isSome, isAdmitted, tracked.isLoaded,
    tracked.standing.streamed agents.serialized agents.linearized⟩

end StreamingServer

end Seen

/-! ## Sending what is left -/

/-- The stream further on. -/
structure Stream.Continues (stream next : Stream) : Prop where
  draw : next.toStreamDraw = stream.toStreamDraw
  sessionId : next.sessionId = stream.sessionId
  outcome : next.outcome = stream.outcome
  isOpen : next.channel.isOpen = stream.channel.isOpen

theorem Stream.Continues.trans {stream middle next : Stream} (first : stream.Continues middle)
    (second : middle.Continues next) : stream.Continues next where
  draw := second.draw.trans first.draw
  sessionId := second.sessionId.trans first.sessionId
  outcome := second.outcome.trans first.outcome
  isOpen := second.isOpen.trans first.isOpen

theorem Stream.Continues.script {stream next : Stream} (continues : stream.Continues next)
    (chunkChars : Nat) : next.script chunkChars = stream.script chunkChars := by
  rw [Stream.script, Stream.script, continues.draw, continues.sessionId, continues.outcome]

/-- All is sent, and received if the client is there. -/
def Stream.Finished (stream : Stream) : Prop :=
  stream.rest = [] ∧ (stream.channel.isOpen = true → stream.channel.buffer = [])

/-- How much there is to do until all is sent, and received if the client is there. -/
def Stream.unsent (stream : Stream) : Nat :=
  2 * stream.rest.length + stream.channel.buffer.length

/-- Either the task or the client can go on until all is done. -/
theorem Stream.exists_next {stream : Stream} (unfinished : ¬stream.Finished) :
    ∃ next, (stream.push = some next ∨
        (stream.channel.isOpen = true ∧ stream.pull = some next)) ∧
      stream.Continues next ∧ next.unsent < stream.unsent := by
  have pulls : stream.channel.isOpen = true → stream.channel.buffer ≠ [] →
      ∃ next, (stream.channel.isOpen = true ∧ stream.pull = some next) ∧
        stream.Continues next ∧ next.unsent < stream.unsent := by
    intro isOpen nonempty
    obtain ⟨channel, receives, stillOpen, shorter⟩ := Channel.exists_receive isOpen nonempty
    refine ⟨{ stream with channel := channel }, ⟨isOpen, ?_⟩, ⟨rfl, rfl, rfl, ?_⟩, ?_⟩
    · rw [Stream.pull, receives]
      rfl
    · exact stillOpen.trans isOpen.symm
    · exact Nat.add_lt_add_left shorter _
  cases isRest : stream.rest with
  | nil =>
      have unread : stream.channel.isOpen = true ∧ stream.channel.buffer ≠ [] := by
        simpa only [Stream.Finished, isRest, true_and, Classical.not_imp] using unfinished
      obtain ⟨next, pulled, continues⟩ := pulls unread.1 unread.2
      exact ⟨next, .inr pulled, continues⟩
  | cons event rest =>
      cases sends : stream.channel.send streamCapacity event with
      | none =>
          obtain ⟨isOpen, nonempty⟩ := Channel.isFull_of_send_eq_none (by decide) sends
          obtain ⟨next, pulled, continues⟩ := pulls isOpen nonempty
          exact ⟨next, .inr pulled, continues⟩
      | some channel =>
          obtain ⟨sameOpen, longer⟩ := Channel.isOpen_of_send sends
          refine ⟨{ stream with rest := rest, channel := channel }, .inl ?_,
            ⟨rfl, rfl, rfl, sameOpen⟩, ?_⟩
          · simp only [Stream.push, isRest, sends, Option.map_some]
          · simp only [Stream.unsent, isRest, List.length_cons]
            omega

namespace StreamingServer

section Freeing

variable {F : Type} [Field F] [LinearOrder F] {state : ApiState} {context : AgentContext F}
  {chunkChars : Nat} {server : StreamingServer F} {n : Nat} {stream : Stream}
  {lock : AgentLock F} {outcome : Except SendError Text}

/-- What happens until the lock is free: the task sends, its client reads if it is there, and
the task gives the lock back. -/
def Frees (n : Nat) (stream : Stream) (event : StreamingEvent F) : Prop :=
  event = .push n ∨ (event = .pull n ∧ stream.channel.isOpen = true) ∨
    ∃ draw, event = .api (.resume stream.sessionId .sent) draw

/-- The server with the stream further on. -/
structure OnWay (server : StreamingServer F) (n : Nat) (stream : Stream)
    (later : StreamingServer F) (next : Stream) : Prop where
  api : later.api = server.api
  isStream : later.streams n = some next
  continues : stream.Continues next

/-- How far the stream of a request is from its end. -/
def unsent (n : Nat) (server : StreamingServer F) : Nat :=
  ((server.streams n).map Stream.unsent).getD 0

theorem exists_finished (state : ApiState) (context : AgentContext F) (chunkChars : Nat)
    (isStream : server.streams n = some stream) :
    ∃ events later, (∀ event ∈ events, Frees n stream event) ∧
      (system state context chunkChars).run server events = some later ∧
      ∃ next, OnWay server n stream later next ∧ Stream.Finished next := by
  have progress : ∀ later, (∃ next, OnWay server n stream later next) →
      (∃ next, OnWay server n stream later next ∧ Stream.Finished next) ∨
        ∃ event target, Frees n stream event ∧
          (system state context chunkChars).step later event = some target ∧
          (∃ next, OnWay server n stream target next) ∧ unsent n target < unsent n later := by
    rintro later ⟨next, onWay⟩
    by_cases finished : Stream.Finished next
    · exact .inl ⟨next, onWay, finished⟩
    · right
      obtain ⟨target, moved, continues, nearer⟩ := Stream.exists_next finished
      have further : OnWay server n stream (later.setStream n target) target :=
        ⟨onWay.api, streams_setStream .., onWay.continues.trans continues⟩
      have smaller : unsent n (later.setStream n target) < unsent n later := by
        rw [unsent, unsent, further.isStream, onWay.isStream]
        exact nearer
      rcases moved with pushed | ⟨isOpen, pulled⟩
      · exact ⟨.push n, later.setStream n target, .inl rfl,
          step_push state context chunkChars onWay.isStream pushed, ⟨target, further⟩, smaller⟩
      · have stillOpen := onWay.continues.isOpen.symm.trans isOpen
        exact ⟨.pull n, later.setStream n target, .inr (.inl ⟨rfl, stillOpen⟩),
          step_pull state context chunkChars onWay.isStream pulled, ⟨target, further⟩, smaller⟩
  exact System.exists_run_of_rank (unsent n) progress ⟨stream, rfl, isStream, rfl, rfl, rfl, rfl⟩

/-- The lock is given back when all is sent. -/
theorem exists_step_sent (state : ApiState) (context : AgentContext F) (chunkChars : Nat)
    {later : StreamingServer F} {next : Stream} {op : AgentOp}
    {inputs : List (AgentInput F)} (isLoaded : later.api.agents stream.sessionId = some lock)
    (isHolder : lock.holder = some ⟨n, op, inputs, .streamed outcome⟩)
    (isStream : later.streams n = some next) (sent : next.rest = []) (draw : StreamDraw) :
    ∃ final freed, (system state context chunkChars).step later
        (.api (.resume stream.sessionId .sent) draw) = some final ∧
      final.api = later.api.setAgent stream.sessionId freed ∧
      final.streams = listenAll chunkChars final.api later.streams ∧
      freed.holder = none ∧ freed.queue = lock.queue ∧ freed.object = lock.object ∧
      freed.results n = some (.chat outcome) := by
  have goes : ¬later.holdsBack (.resume stream.sessionId .sent) = true := by
    simp [holdsBack, isLoaded, isHolder, isStream, sent]
  obtain ⟨freed, isFreed⟩ : ∃ freed, freed =
      lock.settle n op (inputs ++ [.sent]) (lock.object, .returns (.chat outcome)) := ⟨_, rfl⟩
  have stepped : later.api.step state context (.resume stream.sessionId .sent) =
      some (later.api.setAgent stream.sessionId freed) := by
    rw [isFreed]
    exact ApiServer.step_resume state isLoaded isHolder rfl
  refine ⟨⟨later.api.setAgent stream.sessionId freed,
    listenAll chunkChars (later.api.setAgent stream.sessionId freed) later.streams⟩, freed, ?_, rfl,
    rfl, ?_⟩
  · simp only [system, step, if_neg goes, stepped, Option.map_some, streamsAfter]
  · rw [isFreed]
    exact ⟨rfl, rfl, rfl, Function.update_self ..⟩

/-- **A streamed chat can always come to its end**: from every state of every run, if its client
reads what is left, and without the client when it is gone. -/
theorem exists_run_of_streaming
    (reachable : (system state context chunkChars).Reachable (fun _ _ => True) server)
    (isStream : server.streams n = some stream) (isOutcome : stream.outcome = some outcome)
    (isLoaded : server.api.agents stream.sessionId = some lock)
    (unreplied : lock.results n = none) :
    ∃ events final freed last, (∀ event ∈ events, Frees n stream event) ∧
      (system state context chunkChars).run server events = some final ∧
      final.api = server.api.setAgent stream.sessionId freed ∧
      freed.holder = none ∧ freed.queue = lock.queue ∧ freed.object = lock.object ∧
      freed.results n = some (.chat outcome) ∧ final.streams n = some last ∧
      (stream.channel.isOpen = true → last.channel.received = stream.script chunkChars) := by
  obtain ⟨events, later, frees, replayed, next, onWay, sent, read⟩ :=
    exists_finished state context chunkChars isStream
  have sound := sound_of_reachable reachable
  have laterSound := sound_of_reachable (reachable.of_run
    (System.admits_of_forall (fun _ _ _ => trivial) server) replayed)
  obtain ⟨same, tracked⟩ := sound.tracked n stream isStream
  cases isLoaded.symm.trans tracked.isLoaded
  have expects := tracked.standing.expects
  unfold Expects at expects
  rw [isOutcome] at expects
  rcases expects with ⟨returned, _⟩ | ⟨⟨task, op, inputs, wait⟩, isHolder, rfl, rfl⟩
  · rw [unreplied] at returned
    contradiction
  have isThere : later.api.agents stream.sessionId = some lock := by
    rw [onWay.api]
    exact isLoaded
  obtain ⟨final, freed, stepped, isApi, isStreams, given⟩ := exists_step_sent state context
    chunkChars isThere isHolder onWay.isStream sent stream.toStreamDraw
  have isLast : final.streams task = some next := by
    have isAgent : final.api.agents next.sessionId = some freed := by
      rw [isApi, onWay.continues.sessionId]
      exact Function.update_self ..
    have heard : next.outcome = some outcome := onWay.continues.outcome.trans isOutcome
    rw [isStreams, listenAll, onWay.isStream, Option.map_some, isAgent, Option.elim_some]
    simp only [Stream.listen, heard]
  obtain ⟨isFree, isQueue, isObject, isReturned⟩ := given
  refine ⟨_, final, freed, next, ?_, System.run_concat replayed stepped, ?_, isFree, isQueue,
    isObject, isReturned, isLast, fun isOpen => ?_⟩
  · intro event member
    rcases List.mem_append.mp member with before | isLast
    · exact frees event before
    · rw [List.mem_singleton.mp isLast]
      exact .inr (.inr ⟨_, rfl⟩)
  · rw [isApi, onWay.api]
  · obtain ⟨_, nextTracked⟩ := laterSound.tracked task next onWay.isStream
    have stillOpen : next.channel.isOpen = true := onWay.continues.isOpen.trans isOpen
    have whole := nextTracked.standing.carries.whole stillOpen
    rw [sent, read stillOpen, List.append_nil, List.append_nil] at whole
    exact whole.trans (onWay.continues.script chunkChars)

end Freeing

end StreamingServer

/-! ## A reply in pieces -/

noncomputable def chattingStreams : StreamingServer ℝ where
  api := chattingServer
  streams _ := none

def plainDraw : StreamDraw :=
  ⟨Block.replicate 16 0, fun _ => []⟩

def streamRequest : ApiRequest :=
  ⟨some (utf8 (text "key")), none, .postChatStream (text "Hi there")⟩

/-- The request comes to the lock and is answered. -/
def answeredEvents (draw : PromptDraw ℝ) (answer : HttpAnswer) : List (StreamingEvent ℝ) := [
  .api (.request 0 streamRequest (.error ⟨.loadSession, []⟩)) plainDraw,
  .api (.enter (text "default") (.prompted draw)) plainDraw,
  .api (.resume (text "default") (.replied [] answer .written)) plainDraw]

/-- The client sees the start and the first piece. -/
def pieceEvents : List (StreamingEvent ℝ) :=
  [.pull 0, .push 0, .push 0, .pull 0]

/-- The stream once the reply is known. -/
def answeredStream : Stream :=
  { Stream.opened plainDraw (text "default") with
    outcome := some (.ok (text "Hello"))
    rest := streamEvents 2 plainDraw.causes (.ok (text "Hello")) }

def startEvent : StreamEvent :=
  .start plainDraw.requestId (text "default")

/-- The stream once its first piece is read. -/
def begunStream : Stream :=
  { answeredStream with
    rest := [.delta (text "o"), .done true]
    channel := ⟨true, [.delta (text "ll")], [startEvent, .delta (text "He")]⟩ }

theorem init_chattingStreams :
    (StreamingServer.system keyedApi standardContext 2).init chattingStreams :=
  ⟨init_chattingServer, fun _ => rfl⟩

/-- The request has come to the lock. -/
theorem exists_opened : ∃ server lock,
    (StreamingServer.system keyedApi standardContext 2).run chattingStreams [.api (.request 0
        streamRequest (.error ⟨.loadSession, []⟩)) plainDraw] = some server ∧
      server.api.requests 0 = some streamRequest ∧ server.api.refusals 0 = none ∧
      server.streams 0 = some (.opened plainDraw (text "default")) ∧
      server.api.agents (text "default") = some lock ∧ lock.object = persistedChatter ∧
      lock.holder = none ∧ lock.queue = [(0, .chat (text "Hi there") true)] ∧
      lock.results 0 = none := by
  refine ⟨_, _, rfl, rfl, rfl, rfl, rfl, rfl, rfl, rfl, rfl⟩

/-- The reply is known and not yet sent. -/
theorem exists_answered : ∃ draw answer server lock,
    (StreamingServer.system keyedApi standardContext 2).run chattingStreams
        (answeredEvents draw answer) = some server ∧
      server.api.requests 0 = some streamRequest ∧ server.api.refusals 0 = none ∧
      server.streams 0 = some answeredStream ∧ server.api.agents (text "default") = some lock ∧
      lock.results 0 = none := by
  obtain ⟨draw, answer, chatted⟩ := exists_chatted true
  obtain ⟨server, lock, replayed, isRequest, unrefused, isStream, isLoaded, isObject, isFree,
    isQueue, unreplied⟩ := exists_opened
  obtain ⟨asked, posted, object, asks, heard, isAsks, isHeard, first, second⟩ :=
    chatted isLoaded isObject isFree isQueue
  have enters := StreamingServer.step_api 2 server plainDraw rfl first rfl
  have waiting : StreamingServer.listenAll 2 (server.api.setAgent (text "default") asks)
      server.streams 0 = some (.opened plainDraw (text "default")) := by
    refine (StreamingServer.listenAll_setAgent 2 isStream asks).trans ?_
    rw [isAsks]
    rfl
  have known : StreamingServer.listenAll 2
      ((server.api.setAgent (text "default") asks).setAgent (text "default") heard)
      (StreamingServer.listenAll 2 (server.api.setAgent (text "default") asks) server.streams) 0 =
        some answeredStream := by
    refine (StreamingServer.listenAll_setAgent 2 waiting heard).trans ?_
    rw [isHeard]
    rfl
  have resumes := StreamingServer.step_api 2 ⟨server.api.setAgent (text "default") asks,
    StreamingServer.listenAll 2 (server.api.setAgent (text "default") asks) server.streams⟩
    plainDraw rfl second rfl
  refine ⟨draw, answer, _, heard, System.run_concat (System.run_concat replayed enters) resumes,
    isRequest, unrefused, known, ApiServer.agents_setAgent .., ?_⟩
  rw [isHeard, isAsks]
  exact unreplied

/-- The client has read a piece of the reply. -/
theorem exists_begun : ∃ draw answer server lock,
    (StreamingServer.system keyedApi standardContext 2).run chattingStreams
        (answeredEvents draw answer ++ pieceEvents) = some server ∧
      server.api.requests 0 = some streamRequest ∧ server.api.refusals 0 = none ∧
      server.streams 0 = some begunStream ∧ server.api.agents (text "default") = some lock ∧
      lock.results 0 = none := by
  obtain ⟨draw, answer, server, lock, replayed, isRequest, unrefused, isStream, isLoaded,
    unreplied⟩ := exists_answered
  have first := StreamingServer.step_pull keyedApi standardContext 2 isStream rfl
  have goesOn : ∃ later, (StreamingServer.system keyedApi standardContext 2).run server
      pieceEvents = some later ∧ later.api = server.api ∧ later.streams 0 = some begunStream := by
    rw [pieceEvents, System.run, first]
    exact ⟨_, rfl, rfl, rfl⟩
  obtain ⟨later, further, sameApi, isBegun⟩ := goesOn
  rw [← sameApi] at isRequest unrefused isLoaded
  exact ⟨draw, answer, later, lock, System.run_append replayed further, isRequest, unrefused,
    isBegun, isLoaded, unreplied⟩

theorem reachable_of_chatting {events : List (StreamingEvent ℝ)} {server : StreamingServer ℝ}
    (replayed : (StreamingServer.system keyedApi standardContext 2).run chattingStreams events =
      some server) :
    (StreamingServer.system keyedApi standardContext 2).Reachable (fun _ _ => True) server :=
  .of_run (.start init_chattingStreams)
    (System.admits_of_forall (fun _ _ _ => trivial) chattingStreams) replayed

theorem streamed_chatting : ∃ draw answer server, ∃ lock : AgentLock ℝ,
    (StreamingServer.system keyedApi standardContext 2).run chattingStreams
        (answeredEvents draw answer ++ pieceEvents) = some server ∧
      server.streams 0 = some begunStream ∧ Streamed 2 lock 0 begunStream := by
  obtain ⟨draw, answer, server, _, replayed, isRequest, unrefused, isStream, _⟩ := exists_begun
  obtain ⟨stream, lock, isSame, _, _, streamed⟩ :=
    StreamingServer.streamed_of_reachable (reachable_of_chatting replayed) isRequest rfl unrefused
  cases isStream.symm.trans isSame
  exact ⟨draw, answer, server, lock, replayed, isStream, streamed⟩

/-- The client reads all of the reply and the lock is free. -/
theorem freed_chatting : ∃ draw answer server events final freed last,
    (StreamingServer.system keyedApi standardContext 2).run chattingStreams
        (answeredEvents draw answer ++ pieceEvents) = some server ∧
      (∀ event ∈ events, StreamingServer.Frees 0 begunStream event) ∧
      (StreamingServer.system keyedApi standardContext 2).run server events = some final ∧
      final.api = server.api.setAgent (text "default") freed ∧ freed.holder = none ∧
      freed.results 0 = some (.chat (.ok (text "Hello"))) ∧ final.streams 0 = some last ∧
      last.channel.received = [startEvent, .delta (text "He"), .delta (text "ll"),
        .delta (text "o"), .done true] := by
  obtain ⟨draw, answer, server, lock, replayed, _, _, isStream, isLoaded, unreplied⟩ := exists_begun
  obtain ⟨events, final, freed, last, frees, freeing, isFinal, isFree, _, _, returned, isLast,
    whole⟩ := StreamingServer.exists_run_of_streaming (reachable_of_chatting replayed) isStream rfl
      isLoaded unreplied
  exact ⟨draw, answer, server, events, final, freed, last, replayed, frees, freeing, isFinal,
    isFree, returned, isLast, whole rfl⟩

end ZkLlmGateway.Client
