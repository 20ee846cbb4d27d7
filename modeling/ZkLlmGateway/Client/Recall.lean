import ZkLlmGateway.Client.Retrieval
import ZkLlmGateway.Client.Sending
import ZkLlmGateway.Client.Summary

/-!
# An agent and its index

An agent adds every memory item and every message to its index as it goes.  The
index of a new agent has the last messages of its session, up to a cap, or none.
Nothing is ever taken out, so it stays the index that a restart would build only as
long as no message goes beyond the cap.
-/

namespace ZkLlmGateway.Client

open ZkLlmGateway.Encoding ZkLlmGateway.Common ZkLlmGateway.Ranking

/-! ## The agent -/

structure IndexedAgent (F : Type) extends AgentRuntime where
  promptCfg : PromptBuildConfig
  memoryStore : MemoryStore F

/-- `Session::push_memory`; the identifier and the clock are what it draws. -/
def Session.pushMemory (session : Session) (id : Uuid) (nowMs : Int) (content : Text)
    (tags : List Text) : Session :=
  { session with memory := session.memory ++ [⟨id, nowMs, content, tags⟩] }

namespace IndexedAgent

variable {F : Type} [Field F]

/-- `AgentRuntime::new` with the index. -/
def new (unicode : Unicode) (settings : AgentSettings) (promptCfg : PromptBuildConfig)
    (sessionPath : Path) (session : Session) (redactor : Redactor) (indexMessages : Bool)
    (maxMessagesIndexed : Nat) : IndexedAgent F :=
  { AgentRuntime.new settings sessionPath session redactor with
    promptCfg := promptCfg
    memoryStore := .rebuildFromSession unicode session.memory session.messages indexMessages
      maxMessagesIndexed }

def remember (unicode : Unicode) (agent : IndexedAgent F) (id : Uuid) (nowMs : Int)
    (content : Text) (tags : List Text) : IndexedAgent F :=
  let session := agent.session.pushMemory id nowMs content tags
  { agent with
    session := session
    memoryStore := (session.memory.getLast?).elim agent.memoryStore fun item =>
      agent.memoryStore.addMemoryItem unicode item }

def addRedactionTerm (agent : IndexedAgent F) (term : Text) : IndexedAgent F :=
  let redactor := agent.redactor.addCustomTerm term
  { agent with
    redactor := redactor
    session := { agent.session with redaction := redactor.state } }

def setSystemPrompt (agent : IndexedAgent F) (system : Text) : IndexedAgent F :=
  { agent with session := { agent.session with systemPrompt := system } }

/-- A message is stored and indexed. -/
def pushMessage (unicode : Unicode) (agent : IndexedAgent F) (role content : Text) :
    IndexedAgent F :=
  let index := agent.session.messages.length
  let msg : ChatMessage := ⟨role, content, []⟩
  { agent with
    session := { agent.session with messages := agent.session.messages ++ [msg] }
    memoryStore := agent.memoryStore.addMessage unicode index msg }

def pushUser (unicode : Unicode) (agent : IndexedAgent F) (userMsg : Text) : IndexedAgent F :=
  agent.pushMessage unicode (text "user") userMsg

/-- Messages from here on are in the prompt verbatim. -/
def excludeCutoff (agent : IndexedAgent F) : Nat :=
  agent.session.messages.length - agent.promptCfg.maxRecentMessages

def promptSource (agent : IndexedAgent F) (retrieved : RetrievedBundle) : PromptSource where
  session := agent.session
  retrieved := retrieved.context
  tokenClass := agent.tokenClass
  redactMode := agent.redactMode
  extraRedactionTerms := agent.extraTerms
  cfg := agent.promptCfg

variable [LinearOrder F]

/-- The two orders in which a retrieval meets its maps. -/
structure RetrievalOrders (F : Type) where
  memory : HashOrder Nat F
  recalled : HashOrder Nat F

def retrieve (library : IndexLibrary F) (orders : RetrievalOrders F) (agent : IndexedAgent F)
    (userMsg : Text) : Option RetrievedBundle :=
  agent.memoryStore.retrieveContext library orders.memory orders.recalled userMsg
    agent.promptCfg.maxMemoryItems agent.promptCfg.maxRecallSnippets (some agent.excludeCutoff)

/-- `send_user_message`; `outcome` is what the call returns once its prompt is built. -/
def sendUserMessage (engine : Engine) (library : IndexLibrary F) (agent : IndexedAgent F)
    (localAi : Option LocalAiClient) (orders : RetrievalOrders F) (userMsg : Text)
    (outcome : Except SendError Text) : IndexedAgent F :=
  let agent := agent.pushUser library.unicode userMsg
  match agent.retrieve library orders userMsg with
  | none => agent
  | some retrieved =>
      let agent := { agent with
        redactor := ((agent.promptSource retrieved).assembled engine agent.redactor).2 }
      match outcome with
      | .error _ => agent
      | .ok out =>
          let agent := agent.pushMessage library.unicode (text "assistant") out
          let agent := { agent with toAgentRuntime := agent.updateSummary engine localAi }
          { agent with session := { agent.session with redaction := agent.redactor.state } }

end IndexedAgent

/-- What is called of an agent. -/
inductive AgentCall (F : Type)
  | remember (id : Uuid) (nowMs : Int) (content : Text) (tags : List Text)
  | addRedactionTerm (term : Text)
  | setSystemPrompt (system : Text)
  | sendUserMessage (localAi : Option LocalAiClient) (orders : IndexedAgent.RetrievalOrders F)
      (userMsg : Text) (outcome : Except SendError Text)

/-- How many messages a call adds: the question, and the answer if there is one. -/
def AgentCall.messagesAdded {F : Type} : AgentCall F → Nat
  | .sendUserMessage _ _ _ (.error _) => 1
  | .sendUserMessage _ _ _ (.ok _) => 2
  | _ => 0

namespace IndexedAgent

/-! ## What is indexed -/

/-- The documents of the messages from position `first` on. -/
def messageDocs (messages : List ChatMessage) (first : Nat) : List StoredDoc :=
  (messages.zipIdx.drop first).map fun (msg, i) => messageDoc i msg

/-- The index has the memory and the messages from position `first` on. -/
structure Indexed {F : Type} [Field F] (unicode : Unicode) (first : Nat) (agent : IndexedAgent F) :
    Prop where
  exact : MemoryStore.Exact unicode agent.memoryStore
  bound : first ≤ agent.session.messages.length
  docs : agent.memoryStore.docs.Perm
    (agent.session.memory.map memoryDoc ++ messageDocs agent.session.messages first)

/-- Where a new index begins. -/
def firstIndexed (messages : Nat) (indexMessages : Bool) (maxMessagesIndexed : Nat) : Nat :=
  if indexMessages then messages - maxMessagesIndexed else messages

section Invariant

variable {F : Type} [Field F] {unicode : Unicode} {first : Nat} {agent : IndexedAgent F}

omit [Field F] in
theorem sessionDocs_eq (memory : List MemoryItem) (messages : List ChatMessage)
    (indexMessages : Bool) (maxMessages : Nat) :
    MemoryStore.sessionDocs memory messages indexMessages maxMessages =
      memory.map memoryDoc ++
        messageDocs messages (firstIndexed messages.length indexMessages maxMessages) := by
  unfold MemoryStore.sessionDocs messageDocs firstIndexed
  cases indexMessages with
  | true => rfl
  | false =>
      have none : messages.zipIdx.drop messages.length = [] :=
        List.drop_eq_nil_of_le (by rw [List.length_zipIdx])
      simp only [Bool.false_eq_true, if_false, none, List.map_nil]

theorem indexed_new (unicode : Unicode) (settings : AgentSettings) (promptCfg : PromptBuildConfig)
    (sessionPath : Path) (session : Session) (redactor : Redactor) (indexMessages : Bool)
    (maxMessagesIndexed : Nat) :
    Indexed unicode (firstIndexed session.messages.length indexMessages maxMessagesIndexed)
      (new unicode settings promptCfg sessionPath session redactor indexMessages
        maxMessagesIndexed : IndexedAgent F) := by
  obtain ⟨exact, docs⟩ := MemoryStore.rebuildFromSession_exact (F := F) unicode session.memory
    session.messages indexMessages maxMessagesIndexed
  refine ⟨exact, ?_, ?_⟩
  · change firstIndexed session.messages.length indexMessages maxMessagesIndexed ≤
      session.messages.length
    unfold firstIndexed
    split
    · exact Nat.sub_le _ _
    · exact le_rfl
  · exact List.Perm.of_eq (docs.trans (sessionDocs_eq session.memory session.messages indexMessages
      maxMessagesIndexed))

theorem messageDocs_append_singleton {messages : List ChatMessage} (bound : first ≤ messages.length)
    (msg : ChatMessage) :
    messageDocs (messages ++ [msg]) first =
      messageDocs messages first ++ [messageDoc messages.length msg] := by
  have split : (messages ++ [msg]).zipIdx = messages.zipIdx ++ [(msg, messages.length)] := by
    rw [List.zipIdx_append, List.zipIdx_singleton, Nat.zero_add]
  rw [messageDocs, split, List.drop_append_of_le_length (by rw [List.length_zipIdx]; exact bound),
    List.map_append]
  rfl

theorem Indexed.remember (indexed : Indexed unicode first agent) (id : Uuid) (nowMs : Int)
    (content : Text) (tags : List Text) :
    Indexed unicode first (agent.remember unicode id nowMs content tags) := by
  have isLast : (agent.session.memory ++ [(⟨id, nowMs, content, tags⟩ : MemoryItem)]).getLast? =
      some ⟨id, nowMs, content, tags⟩ := List.getLast?_concat
  simp only [IndexedAgent.remember, Session.pushMemory, isLast, Option.elim_some]
  refine ⟨indexed.exact.addDoc _, indexed.bound, ?_⟩
  rw [MemoryStore.addMemoryItem, MemoryStore.docs_addDoc, List.map_append, List.map_singleton,
    List.append_assoc]
  apply (indexed.docs.append_right _).trans
  rw [List.append_assoc]
  exact List.Perm.append_left _ List.perm_append_comm

theorem Indexed.pushMessage (indexed : Indexed unicode first agent) (role content : Text) :
    Indexed unicode first (agent.pushMessage unicode role content) := by
  refine ⟨indexed.exact.addDoc _, ?_, ?_⟩
  · apply indexed.bound.trans
    simp [IndexedAgent.pushMessage]
  · simp only [IndexedAgent.pushMessage]
    rw [MemoryStore.addMessage, MemoryStore.docs_addDoc, messageDocs_append_singleton indexed.bound,
      ← List.append_assoc]
    exact indexed.docs.append_right _

end Invariant

/-! ## Runs -/

section Runs

variable {F : Type} [Field F] [LinearOrder F]

def call (engine : Engine) (library : IndexLibrary F) (agent : IndexedAgent F) :
    AgentCall F → IndexedAgent F
  | .remember id nowMs content tags => agent.remember library.unicode id nowMs content tags
  | .addRedactionTerm term => agent.addRedactionTerm term
  | .setSystemPrompt system => agent.setSystemPrompt system
  | .sendUserMessage localAi orders userMsg outcome =>
      agent.sendUserMessage engine library localAi orders userMsg outcome

/-- The agent after some calls. -/
def after (engine : Engine) (library : IndexLibrary F) (agent : IndexedAgent F)
    (calls : List (AgentCall F)) : IndexedAgent F :=
  calls.foldl (call engine library) agent

variable {engine : Engine} {library : IndexLibrary F} {first : Nat} {agent : IndexedAgent F}

/-- A call that sends a message leaves the index that of the messages. -/
theorem Indexed.sendUserMessage (indexed : Indexed library.unicode first agent)
    (localAi : Option LocalAiClient) (orders : RetrievalOrders F) (userMsg : Text)
    (outcome : Except SendError Text) :
    Indexed library.unicode first
      (agent.sendUserMessage engine library localAi orders userMsg outcome) := by
  have pushed := indexed.pushMessage (text "user") userMsg
  unfold IndexedAgent.sendUserMessage
  simp only
  split
  next => exact pushed
  next retrieved _ =>
    have built : Indexed library.unicode first { agent.pushUser library.unicode userMsg with
        redactor := (((agent.pushUser library.unicode userMsg).promptSource retrieved).assembled
          engine (agent.pushUser library.unicode userMsg).redactor).2 } :=
      ⟨pushed.exact, pushed.bound, pushed.docs⟩
    cases outcome with
    | error error => exact built
    | ok out =>
        have answered := built.pushMessage (text "assistant") out
        exact ⟨answered.exact, answered.bound, answered.docs⟩

/-- Every call keeps the index that of the messages from where it began. -/
theorem Indexed.call (indexed : Indexed library.unicode first agent) (agentCall : AgentCall F) :
    Indexed library.unicode first (agent.call engine library agentCall) := by
  cases agentCall with
  | remember id nowMs content tags => exact indexed.remember id nowMs content tags
  | addRedactionTerm term => exact ⟨indexed.exact, indexed.bound, indexed.docs⟩
  | setSystemPrompt system => exact ⟨indexed.exact, indexed.bound, indexed.docs⟩
  | sendUserMessage localAi orders userMsg outcome =>
      exact indexed.sendUserMessage localAi orders userMsg outcome

theorem Indexed.after (indexed : Indexed library.unicode first agent) (calls : List (AgentCall F)) :
    Indexed library.unicode first (agent.after engine library calls) := by
  induction calls generalizing agent with
  | nil => exact indexed
  | cons agentCall calls inductionHypothesis => exact inductionHypothesis (indexed.call agentCall)

end Runs

/-! ## A restart -/

section Restart

variable {F : Type} [Field F]

/-- The index that a restart would build. -/
def rebuilt (unicode : Unicode) (indexMessages : Bool) (maxMessagesIndexed : Nat)
    (agent : IndexedAgent F) : MemoryStore F :=
  .rebuildFromSession unicode agent.session.memory agent.session.messages indexMessages
    maxMessagesIndexed

variable [LinearOrder F]

/-- The index has the documents that a restart would index, and no more messages than are to be
indexed; searches and retrievals can return the same before the restart and after. -/
structure IsRebuilt (library : IndexLibrary F) (indexMessages : Bool) (maxMessagesIndexed : Nat)
    (agent : IndexedAgent F) : Prop where
  docs : agent.memoryStore.docs.Perm
    (agent.rebuilt library.unicode indexMessages maxMessagesIndexed).docs
  searches : ∀ query limit kindFilter excludeMessagesFromIndex,
    agent.memoryStore.possible library query limit kindFilter excludeMessagesFromIndex =
      (agent.rebuilt library.unicode indexMessages maxMessagesIndexed).possible library query limit
        kindFilter excludeMessagesFromIndex
  contexts : ∀ query maxMemoryItems maxRecallSnippets cutoff,
    agent.memoryStore.possibleContexts library query maxMemoryItems maxRecallSnippets cutoff =
      (agent.rebuilt library.unicode indexMessages maxMessagesIndexed).possibleContexts library
        query maxMemoryItems maxRecallSnippets cutoff
  capped : agent.memoryStore.docs.countP (fun doc => doc.kind = .message) ≤
    if indexMessages then maxMessagesIndexed else 0

theorem length_messageDocs (messages : List ChatMessage) (first : Nat) :
    (messageDocs messages first).length = messages.length - first := by
  rw [messageDocs, List.length_map, List.length_drop, List.length_zipIdx]

variable {library : IndexLibrary F} {first : Nat} {agent : IndexedAgent F} {indexMessages : Bool}
  {maxMessagesIndexed : Nat}

omit [LinearOrder F] in
/-- So many messages are indexed. -/
theorem Indexed.countP_message {unicode : Unicode} (indexed : Indexed unicode first agent) :
    agent.memoryStore.docs.countP (fun doc => doc.kind = .message) =
      agent.session.messages.length - first := by
  have noMemory :
      (agent.session.memory.map memoryDoc).countP (fun doc => doc.kind = .message) = 0 :=
    List.countP_eq_zero.mpr fun doc member => by
      obtain ⟨item, _, rfl⟩ := List.mem_map.mp member
      simp [memoryDoc]
  have allMessages : (messageDocs agent.session.messages first).countP
      (fun doc => doc.kind = .message) = (messageDocs agent.session.messages first).length :=
    List.countP_eq_length.mpr fun doc member => by
      obtain ⟨entry, _, rfl⟩ := List.mem_map.mp member
      rfl
  rw [indexed.docs.countP_eq, List.countP_append, noMemory, allMessages, Nat.zero_add,
    length_messageDocs]

variable [IsStrictOrderedRing F]

/-- **The index is that of a restart exactly when** no message was added to the `start` messages
of the beginning, or all of them may be indexed. -/
theorem Indexed.isRebuilt_iff {start : Nat}
    (indexed : Indexed library.unicode (firstIndexed start indexMessages maxMessagesIndexed) agent)
    (grown : start ≤ agent.session.messages.length) :
    IsRebuilt library indexMessages maxMessagesIndexed agent ↔
      agent.session.messages.length = start ∨
        indexMessages = true ∧ agent.session.messages.length ≤ maxMessagesIndexed := by
  obtain ⟨exactRebuilt, docsRebuilt⟩ := MemoryStore.rebuildFromSession_exact (F := F)
    library.unicode agent.session.memory agent.session.messages indexMessages maxMessagesIndexed
  rw [sessionDocs_eq] at docsRebuilt
  have sameFirst : firstIndexed start indexMessages maxMessagesIndexed =
        firstIndexed agent.session.messages.length indexMessages maxMessagesIndexed ↔
      agent.session.messages.length = start ∨
        indexMessages = true ∧ agent.session.messages.length ≤ maxMessagesIndexed := by
    cases indexMessages <;> simp [firstIndexed] <;> omega
  rw [← sameFirst]
  constructor
  · intro isRebuilt
    have lengths := isRebuilt.docs.length_eq
    rw [indexed.docs.length_eq, rebuilt, docsRebuilt, List.length_append, List.length_append,
      length_messageDocs, length_messageDocs] at lengths
    have bound := indexed.bound
    have boundRebuilt : firstIndexed agent.session.messages.length indexMessages
        maxMessagesIndexed ≤ agent.session.messages.length := by
      cases indexMessages <;> simp [firstIndexed]
    omega
  · intro same
    have docs : agent.memoryStore.docs.Perm
        (agent.rebuilt library.unicode indexMessages maxMessagesIndexed).docs := by
      rw [rebuilt, docsRebuilt, ← same]
      exact indexed.docs
    refine ⟨docs, fun query limit kindFilter excludeMessagesFromIndex => ?_,
      fun query maxMemoryItems maxRecallSnippets cutoff => ?_, ?_⟩
    · exact MemoryStore.possible_eq_of_perm indexed.exact exactRebuilt docs.symm
    · exact MemoryStore.possibleContexts_eq_of_perm indexed.exact exactRebuilt docs.symm query
        maxMemoryItems maxRecallSnippets cutoff
    · rw [indexed.countP_message, same]
      cases indexMessages with
      | true =>
          rw [firstIndexed, if_pos rfl, if_pos rfl]
          omega
      | false =>
          rw [firstIndexed, if_neg nofun, if_neg nofun, Nat.sub_self]

/-- A retrieval does not panic. -/
theorem Indexed.exists_retrieve (indexed : Indexed library.unicode first agent)
    (orders : RetrievalOrders F) (userMsg : Text) :
    ∃ retrieved, agent.retrieve library orders userMsg = some retrieved :=
  ⟨_, MemoryStore.retrieveContext_eq indexed.exact _ _ _ _ _ _⟩

variable {engine : Engine}

theorem Indexed.length_messages_call (indexed : Indexed library.unicode first agent)
    (agentCall : AgentCall F) :
    (agent.call engine library agentCall).session.messages.length =
      agent.session.messages.length + agentCall.messagesAdded := by
  cases agentCall with
  | remember id nowMs content tags => rfl
  | addRedactionTerm term => rfl
  | setSystemPrompt system => rfl
  | sendUserMessage localAi orders userMsg outcome =>
      have pushed : Indexed library.unicode first (agent.pushUser library.unicode userMsg) :=
        indexed.pushMessage (text "user") userMsg
      obtain ⟨retrieved, isRetrieved⟩ := pushed.exists_retrieve orders userMsg
      simp only [IndexedAgent.call, IndexedAgent.sendUserMessage, isRetrieved]
      cases outcome with
      | error error => exact List.length_append
      | ok out =>
          exact List.length_append.trans (congrArg (· + 1) List.length_append)

theorem Indexed.length_messages_after (indexed : Indexed library.unicode first agent)
    (calls : List (AgentCall F)) :
    (agent.after engine library calls).session.messages.length =
      agent.session.messages.length + (calls.map AgentCall.messagesAdded).sum := by
  induction calls generalizing agent with
  | nil => rfl
  | cons agentCall calls inductionHypothesis =>
      rw [List.map_cons, List.sum_cons, ← Nat.add_assoc, ← indexed.length_messages_call]
      exact inductionHypothesis (indexed.call agentCall)

/-- **A live index stays the one that a restart would build exactly when** no message is added
to the session, or messages are indexed and all of them fit under the cap. -/
theorem forall_isRebuilt_iff (engine : Engine) (library : IndexLibrary F)
    (settings : AgentSettings) (promptCfg : PromptBuildConfig) (sessionPath : Path)
    (session : Session) (redactor : Redactor) (indexMessages : Bool) (maxMessagesIndexed : Nat)
    (calls : List (AgentCall F)) :
    (∀ made, made <+: calls → IsRebuilt library indexMessages maxMessagesIndexed
      ((new library.unicode settings promptCfg sessionPath session redactor indexMessages
        maxMessagesIndexed).after engine library made)) ↔
      (calls.map AgentCall.messagesAdded).sum = 0 ∨ indexMessages = true ∧
        session.messages.length + (calls.map AgentCall.messagesAdded).sum ≤ maxMessagesIndexed := by
  have indexed := indexed_new (F := F) library.unicode settings promptCfg sessionPath session
    redactor indexMessages maxMessagesIndexed
  have start : (new library.unicode settings promptCfg sessionPath session redactor indexMessages
      maxMessagesIndexed : IndexedAgent F).session.messages.length = session.messages.length := rfl
  have ofRun : ∀ made, IsRebuilt library indexMessages maxMessagesIndexed
      ((new library.unicode settings promptCfg sessionPath session redactor indexMessages
        maxMessagesIndexed).after engine library made) ↔
      (made.map AgentCall.messagesAdded).sum = 0 ∨ indexMessages = true ∧
        session.messages.length + (made.map AgentCall.messagesAdded).sum ≤ maxMessagesIndexed := by
    intro made
    have length : ((new library.unicode settings promptCfg sessionPath session redactor
        indexMessages maxMessagesIndexed).after engine library made).session.messages.length =
          session.messages.length + (made.map AgentCall.messagesAdded).sum :=
      (indexed.length_messages_after made).trans (by rw [start])
    rw [(indexed.after made).isRebuilt_iff (by rw [length]; exact Nat.le_add_right _ _), length,
      Nat.add_eq_left]
  simp only [ofRun]
  constructor
  · exact fun rebuilt => rebuilt calls (List.prefix_refl calls)
  · rintro few made ⟨rest, rfl⟩
    rw [List.map_append, List.sum_append] at few
    rcases few with none | ⟨isIndexed, fits⟩
    · exact .inl (by omega)
    · exact .inr ⟨isIndexed, by omega⟩

end Restart

/-! ## The verbatim window -/

section Window

variable {F : Type} [Field F]

/-- The positions of the messages that are in the prompt verbatim. -/
def verbatim (agent : IndexedAgent F) : List Nat :=
  (takeLast agent.session.messages.zipIdx agent.promptCfg.maxRecentMessages).map Prod.snd

/-- A document of the message at a position. -/
structure IsOfMessage (agent : IndexedAgent F) (i : Nat) (doc : StoredDoc) : Prop where
  stored : doc ∈ agent.memoryStore.docs
  kind : doc.kind = .message
  msgIndex : doc.msgIndex = some i

theorem takeLast_eq_drop {α : Type} (v : List α) (n : Nat) :
    takeLast v n = v.drop (v.length - n) := by
  unfold takeLast
  split
  next short => rw [Nat.sub_eq_zero_of_le short, List.drop_zero]
  next => rfl

omit [Field F] in
/-- The prompt's own cut keeps the messages from the cutoff of the search on. -/
theorem mem_verbatim_iff {agent : IndexedAgent F} {i : Nat} :
    i ∈ agent.verbatim ↔ agent.excludeCutoff ≤ i ∧ i < agent.session.messages.length := by
  have positions : agent.verbatim = List.range' agent.excludeCutoff
      (agent.session.messages.length - agent.excludeCutoff) := by
    rw [verbatim, takeLast_eq_drop, List.map_drop, List.zipIdx_map_snd, List.length_zipIdx,
      List.drop_range']
    simp [excludeCutoff]
  rw [positions, List.mem_range'_1]
  have bound : agent.excludeCutoff ≤ agent.session.messages.length := Nat.sub_le _ _
  omega

omit [Field F] in
/-- The prompt's recent messages are those at the positions. -/
theorem takeLast_messages (agent : IndexedAgent F) :
    takeLast agent.session.messages agent.promptCfg.maxRecentMessages =
      agent.verbatim.filterMap fun i => agent.session.messages[i]? := by
  have atPosition : ∀ entry ∈ takeLast agent.session.messages.zipIdx
      agent.promptCfg.maxRecentMessages, agent.session.messages[entry.2]? = some entry.1 := by
    intro entry member
    rw [takeLast_eq_drop] at member
    exact List.mem_zipIdx_iff_getElem?.mp (List.mem_of_mem_drop member)
  have found : (takeLast agent.session.messages.zipIdx
      agent.promptCfg.maxRecentMessages).filterMap (fun entry => agent.session.messages[entry.2]?) =
        (takeLast agent.session.messages.zipIdx
          agent.promptCfg.maxRecentMessages).map Prod.fst := by
    rw [List.filterMap_congr atPosition, List.filterMap_eq_map']
  rw [verbatim, List.filterMap_map]
  refine Eq.trans ?_ found.symm
  rw [takeLast_eq_drop, takeLast_eq_drop, List.map_drop, List.zipIdx_map_fst, List.length_zipIdx]

theorem Indexed.of_message {unicode : Unicode} {first : Nat} {agent : IndexedAgent F}
    (indexed : Indexed unicode first agent) {doc : StoredDoc}
    (stored : doc ∈ agent.memoryStore.docs) (kind : doc.kind = .message) :
    ∃ i msg, agent.session.messages[i]? = some msg ∧ doc = messageDoc i msg := by
  rcases List.mem_append.mp (indexed.docs.mem_iff.mp stored) with isMemory | isMessage
  · obtain ⟨item, _, rfl⟩ := List.mem_map.mp isMemory
    exact absurd kind (by simp [memoryDoc])
  · obtain ⟨⟨msg, i⟩, member, rfl⟩ := List.mem_map.mp isMessage
    exact ⟨i, msg, List.mem_zipIdx_iff_getElem?.mp (List.mem_of_mem_drop member), rfl⟩

variable [LinearOrder F] [IsStrictOrderedRing F]

/-- What a retrieval recalls are documents that the search for messages found. -/
theorem Indexed.retrieve_recalled {library : IndexLibrary F} {first : Nat} {agent : IndexedAgent F}
    (indexed : Indexed library.unicode first agent) (orders : RetrievalOrders F)
    (userMsg : Text) :
    ∃ retrieved, ∃ docs : List StoredDoc, agent.retrieve library orders userMsg = some retrieved ∧
      retrieved.recalled = docs.map (fun doc => recallMessage doc.toDoc) ∧
      ∀ doc ∈ docs, doc ∈ agent.memoryStore.docs ∧
        Eligible library userMsg (some .message) (some agent.excludeCutoff) doc := by
  obtain ⟨hits, isFound, answers⟩ := MemoryStore.search_answers indexed.exact orders.recalled
    userMsg agent.promptCfg.maxRecallSnippets (some .message) (some agent.excludeCutoff)
  refine ⟨_, hits.map SearchResult.doc, MemoryStore.retrieveContext_eq indexed.exact _ _ _ _ _ _,
    ?_, ?_⟩
  · simp only [MemoryStore.shown, isFound, Option.getD_some, List.map_map, Function.comp_def]
  · intro doc member
    obtain ⟨hit, inHits, rfl⟩ := List.mem_map.mp member
    exact ⟨(answers.of_mem inHits).1, (answers.of_mem inHits).2.1⟩

/-- Where a message before the recent ones shares a token with the question, something is
recalled. -/
theorem Indexed.recalled_ne_nil {library : IndexLibrary F} {first : Nat} {agent : IndexedAgent F}
    (indexed : Indexed library.unicode first agent) (orders : RetrievalOrders F) {userMsg : Text}
    {doc : StoredDoc} (stored : doc ∈ agent.memoryStore.docs)
    (eligible : Eligible library userMsg (some .message) (some agent.excludeCutoff) doc)
    (room : 0 < agent.promptCfg.maxRecallSnippets) {retrieved : RetrievedBundle}
    (isRetrieved : agent.retrieve library orders userMsg = some retrieved) :
    retrieved.recalled ≠ [] := by
  obtain ⟨hits, isFound, answers⟩ := MemoryStore.search_answers indexed.exact orders.recalled
    userMsg agent.promptCfg.maxRecallSnippets (some .message) (some agent.excludeCutoff)
  have isContext : agent.retrieve library orders userMsg = some _ :=
    MemoryStore.retrieveContext_eq indexed.exact _ _ _ _ _ _
  rw [isRetrieved, Option.some.injEq] at isContext
  rw [isContext]
  simp only [MemoryStore.shown, isFound, Option.getD_some, ne_eq, List.map_eq_nil_iff]
  rintro rfl
  obtain ⟨indices, _, picked, others⟩ := answers.picks
  obtain rfl := List.forall₂_nil_right_iff.mp picked
  obtain ⟨idx, isAt⟩ := List.mem_iff_getElem?.mp stored
  have full := (others idx doc isAt eligible List.not_mem_nil).1
  rw [List.length_nil] at full
  omega

/-- **Nothing is recalled that is in the prompt verbatim.** -/
theorem recalled_not_verbatim (engine : Engine) (library : IndexLibrary F)
    (settings : AgentSettings) (promptCfg : PromptBuildConfig) (sessionPath : Path)
    (session : Session) (redactor : Redactor) (indexMessages : Bool) (maxMessagesIndexed : Nat)
    (calls : List (AgentCall F)) (orders : RetrievalOrders F) (userMsg : Text) :
    let agent := ((new library.unicode settings promptCfg sessionPath session redactor
      indexMessages maxMessagesIndexed).after engine library calls).pushUser library.unicode userMsg
    (∀ doc ∈ agent.memoryStore.docs, doc.kind = .message →
      ∃ i msg, agent.IsOfMessage i doc ∧ agent.session.messages[i]? = some msg ∧
        doc.text = msg.content ∧ doc.role = some msg.role) ∧
      takeLast agent.session.messages agent.promptCfg.maxRecentMessages =
        agent.verbatim.filterMap (fun i => agent.session.messages[i]?) ∧
      ∃ retrieved, ∃ docs : List StoredDoc, agent.retrieve library orders userMsg = some retrieved ∧
        retrieved.recalled = docs.map (fun doc => recallMessage doc.toDoc) ∧
        ∀ doc ∈ docs, ∃ i, agent.IsOfMessage i doc ∧ i ∉ agent.verbatim ∧
          (1 ≤ agent.promptCfg.maxRecentMessages → i ≠ agent.session.messages.length - 1) := by
  intro agent
  have indexed : Indexed library.unicode
      (firstIndexed session.messages.length indexMessages maxMessagesIndexed) agent :=
    ((indexed_new library.unicode settings promptCfg sessionPath session redactor indexMessages
      maxMessagesIndexed).after calls).pushMessage (text "user") userMsg
  refine ⟨fun doc stored kind => ?_, agent.takeLast_messages, ?_⟩
  · obtain ⟨i, msg, isAt, rfl⟩ := indexed.of_message stored kind
    exact ⟨i, msg, ⟨stored, rfl, rfl⟩, isAt, rfl, rfl⟩
  · obtain ⟨retrieved, docs, isRetrieved, isRecalled, found⟩ :=
      indexed.retrieve_recalled orders userMsg
    refine ⟨retrieved, docs, isRetrieved, isRecalled, fun doc member => ?_⟩
    obtain ⟨stored, eligible⟩ := found doc member
    have kind : doc.kind = .message := eligible.ofKind _ rfl
    obtain ⟨i, msg, isAt, rfl⟩ := indexed.of_message stored kind
    have before : i < agent.excludeCutoff := eligible.before _ rfl rfl i rfl
    refine ⟨i, ⟨stored, rfl, rfl⟩, fun isVerbatim => ?_, fun recent => ?_⟩
    · exact absurd (mem_verbatim_iff.mp isVerbatim).1 (Nat.not_le.mpr before)
    · unfold excludeCutoff at before
      omega

end Window

end IndexedAgent

/-! ## A short conversation -/

def quietSettings : AgentSettings :=
  (summarizingAgent [] [] []).toAgentSettings

/-- An agent without messages yet, which indexes them. -/
noncomputable def indexingAgent (maxMessagesIndexed : Nat) : IndexedAgent ℝ :=
  .new asciiTables quietSettings .default [] (.new [] 0 (Block.replicate 32 0))
    (.new (Block.replicate 32 0)) true maxMessagesIndexed

def storedOrders : IndexedAgent.RetrievalOrders ℝ :=
  ⟨.asStored Nat ℝ, .asStored Nat ℝ⟩

def unansweredCall : AgentCall ℝ :=
  .sendUserMessage none storedOrders (text "Hi there") (.error .sendRequest)

def answeredCall : AgentCall ℝ :=
  .sendUserMessage none storedOrders (text "Hi there") (.ok (text "Hello"))

/-- A question without an answer, and room for two messages. -/
theorem isRebuilt_unanswered :
    ((indexingAgent 2).after (.ofTable []) realLibrary [unansweredCall]).IsRebuilt realLibrary true
      2 :=
  (IndexedAgent.forall_isRebuilt_iff (.ofTable []) realLibrary quietSettings .default []
    (.new [] 0 (Block.replicate 32 0)) (.new (Block.replicate 32 0)) true 2
    [unansweredCall]).mpr (.inr ⟨rfl, by decide⟩) _ (List.prefix_refl _)

/-- A question and an answer, and room for one message. -/
theorem not_isRebuilt_answered : ¬∀ (engine : Engine) (library : IndexLibrary ℝ)
    (settings : AgentSettings) (promptCfg : PromptBuildConfig) (sessionPath : Path)
    (session : Session) (redactor : Redactor) (indexMessages : Bool) (maxMessagesIndexed : Nat)
    (calls : List (AgentCall ℝ)),
    ((IndexedAgent.new library.unicode settings promptCfg sessionPath session redactor indexMessages
      maxMessagesIndexed).after engine library calls).IsRebuilt library indexMessages
        maxMessagesIndexed := by
  intro claim
  have rebuilt : ((indexingAgent 1).after (.ofTable []) realLibrary [answeredCall]).IsRebuilt
      realLibrary true 1 := claim _ _ _ _ _ _ _ _ _ _
  have indexed : IndexedAgent.Indexed realLibrary.unicode (IndexedAgent.firstIndexed 0 true 1)
      (indexingAgent 1) :=
    IndexedAgent.indexed_new asciiTables quietSettings .default []
      (.new [] 0 (Block.replicate 32 0)) (.new (Block.replicate 32 0)) true 1
  have length : ((indexingAgent 1).after (.ofTable []) realLibrary
      [answeredCall]).session.messages.length = 2 :=
    indexed.length_messages_after [answeredCall]
  rw [(indexed.after [answeredCall]).isRebuilt_iff (Nat.zero_le _), length] at rebuilt
  exact absurd rebuilt (by decide)

/-- Only the last message is in the prompt verbatim. -/
def shortWindow : PromptBuildConfig :=
  { PromptBuildConfig.default with maxRecentMessages := 1 }

/-- A question and an answer. -/
def greetedSession : Session :=
  { Session.new [] 0 (Block.replicate 32 0) with
    messages := [⟨text "user", text "Green tea", []⟩, ⟨text "assistant", text "Hello", []⟩] }

/-- The next question recalls the first, which is not in the prompt any more. -/
theorem recalled_not_verbatim_answered :
    let agent := (IndexedAgent.new asciiTables quietSettings shortWindow [] greetedSession
      (.new (Block.replicate 32 0)) true 8).pushUser asciiTables (text "More tea")
    ∃ retrieved, ∃ docs : List StoredDoc,
      agent.retrieve realLibrary storedOrders (text "More tea") = some retrieved ∧
      retrieved.recalled = docs.map (fun doc => recallMessage doc.toDoc) ∧ docs ≠ [] ∧
      ∀ doc ∈ docs, ∃ i, agent.IsOfMessage i doc ∧ i ∉ agent.verbatim ∧
        (1 ≤ agent.promptCfg.maxRecentMessages → i ≠ agent.session.messages.length - 1) := by
  intro agent
  obtain ⟨retrieved, docs, isRetrieved, isRecalled, found⟩ :=
    (IndexedAgent.recalled_not_verbatim (.ofTable []) realLibrary quietSettings shortWindow []
      greetedSession (.new (Block.replicate 32 0)) true 8 [] storedOrders (text "More tea")).2.2
  refine ⟨retrieved, docs, isRetrieved, isRecalled, ?_, found⟩
  rintro rfl
  have indexed : IndexedAgent.Indexed asciiTables (IndexedAgent.firstIndexed 2 true 8) agent :=
    (IndexedAgent.indexed_new asciiTables quietSettings shortWindow [] greetedSession
      (.new (Block.replicate 32 0)) true 8).pushMessage (text "user") (text "More tea")
  have stored : messageDoc 0 ⟨text "user", text "Green tea", []⟩ ∈ agent.memoryStore.docs := by
    rw [indexed.docs.mem_iff]
    refine List.mem_append_right _ (List.mem_map.mpr ⟨(_, 0), ?_, rfl⟩)
    exact List.mem_zipIdx_iff_getElem?.mpr rfl
  have eligible : Eligible realLibrary (text "More tea") (some .message)
      (some agent.excludeCutoff) (messageDoc 0 ⟨text "user", text "Green tea", []⟩) := by
    refine ⟨fun kind isKind => Option.some.inj isKind, fun cutoff isCutoff _ i isIndex => ?_,
      text "tea", by decide +kernel, by decide +kernel⟩
    have two : agent.excludeCutoff = 2 := rfl
    rw [← Option.some.inj isCutoff, ← Option.some.inj isIndex, two]
    decide
  exact indexed.recalled_ne_nil storedOrders stored eligible (show 0 < 6 by decide) isRetrieved
    isRecalled

end ZkLlmGateway.Client
