import ZkLlmGateway.Client.Manager
import ZkLlmGateway.Client.Recall
import ZkLlmGateway.Client.Recording

/-!
# The stored mapping

An agent has its redaction state twice: in the redactor, which the building of a
prompt changes, and in the session, which is what is saved.  The session is given
the state when a message is answered, but not when sending it fails.
-/

namespace ZkLlmGateway.Client

open ZkLlmGateway.Encoding ZkLlmGateway.Common ZkLlmGateway.Transition

/-! ## What a prompt records -/

namespace PromptSource

/-- The texts of a prompt that are redacted, in their order. -/
def texts (source : PromptSource) : List Text :=
  let context := memoryText source.session source.retrieved source.cfg
  source.session.systemPrompt ::
    ((if (trim context).isEmpty then [] else [context]) ++
      (takeLast source.session.messages source.cfg.maxRecentMessages).map ChatMessage.content)

/-- The entries for the placeholders that are put into a prompt. -/
def records (source : PromptSource) (engine : Engine) (red : Redactor) : List RedactionEntry :=
  source.texts.flatMap fun content =>
    red.records engine content source.redactMode source.extraRedactionTerms

end PromptSource

theorem Redactor.records_upserts (engine : Engine) (red : Redactor) (entries : List RedactionEntry)
    (content : Text) (mode : RedactMode) (extraTerms : List Text) :
    (red.upserts entries).records engine content mode extraTerms =
      red.records engine content mode extraTerms := by
  rw [Redactor.records, Redactor.records, Redactor.salt_upserts, Redactor.customTerms_upserts]

theorem redactor_redactMessages (engine : Engine) (mode : RedactMode) (extraTerms : List Text)
    (red : Redactor) (messages : List ChatMessage) :
    (redactMessages engine mode extraTerms red messages).2 = red.upserts
      ((messages.map ChatMessage.content).flatMap fun content =>
        red.records engine content mode extraTerms) := by
  induction messages generalizing red with
  | nil => rfl
  | cons message messages inductionHypothesis =>
      simp only [redactMessages, inductionHypothesis, Redactor.redact_eq_upserts,
        Redactor.records_upserts, List.map_cons, List.flatMap_cons, Redactor.upserts_append]

theorem PromptSource.redactor_contextMessage (source : PromptSource) (engine : Engine)
    (red : Redactor) :
    (source.contextMessage engine red).2 =
      red.upserts ((if (trim (memoryText source.session source.retrieved source.cfg)).isEmpty
          then [] else [memoryText source.session source.retrieved source.cfg]).flatMap
        fun content =>
          red.records engine content source.redactMode source.extraRedactionTerms) := by
  unfold contextMessage
  simp only
  split
  next => rfl
  next => simp only [redact, Redactor.redact_eq_upserts, List.flatMap_singleton]

/-- The building of a prompt leaves the redactor with what it records. -/
theorem PromptSource.redactor_assembled (source : PromptSource) (engine : Engine)
    (red : Redactor) :
    (source.assembled engine red).2 = red.upserts (source.records engine red) := by
  simp only [assembled, redactor_redactMessages, redactor_contextMessage, redact,
    Redactor.redact_eq_upserts, Redactor.records_upserts, records, texts, List.flatMap_cons,
    List.flatMap_append, Redactor.upserts_append]

/-! ## The agent and its file -/

/-- An agent with its session file; `prompted` is history: the placeholders that were put into
prompts since the agent was made. -/
structure PersistedAgent (F : Type) extends IndexedAgent F where
  file : Option SessionFile
  prompted : List Text

/-- A call of an agent, and how it saves the session. -/
inductive PersistedCall (F : Type)
  | call (agentCall : AgentCall F) (write : SessionWrite)
  | persist (write : SessionWrite)

/-- A message that cannot be sent is the only call that does not save the session. -/
def AgentCall.persists {F : Type} : AgentCall F → Bool
  | .sendUserMessage _ _ _ (.error _) => false
  | _ => true

namespace IndexedAgent

variable {F : Type} [Field F] [LinearOrder F]

/-- What a call puts into a prompt. -/
def prompts (engine : Engine) (library : IndexLibrary F) (agent : IndexedAgent F) :
    AgentCall F → List RedactionEntry
  | .sendUserMessage _ orders userMsg _ =>
      let agent := agent.pushUser library.unicode userMsg
      (agent.retrieve library orders userMsg).elim [] fun retrieved =>
        (agent.promptSource retrieved).records engine agent.redactor
  | _ => []

end IndexedAgent

namespace PersistedAgent

variable {F : Type}

def persist (agent : PersistedAgent F) (write : SessionWrite) : PersistedAgent F :=
  { agent with file := (write.leaves agent.session).or agent.file }

variable [Field F]

/-- `AgentRuntime::new`, which saves the session. -/
def new (unicode : Unicode) (settings : AgentSettings) (promptCfg : PromptBuildConfig)
    (sessionPath : Path) (session : Session) (redactor : Redactor) (indexMessages : Bool)
    (maxMessagesIndexed : Nat) (file : Option SessionFile) (write : SessionWrite) :
    PersistedAgent F :=
  persist
    { IndexedAgent.new unicode settings promptCfg sessionPath session redactor indexMessages
        maxMessagesIndexed with
      file := file
      prompted := [] }
    write

variable [LinearOrder F]

def call (engine : Engine) (library : IndexLibrary F) (agent : PersistedAgent F) :
    PersistedCall F → PersistedAgent F
  | .persist write => agent.persist write
  | .call agentCall write =>
      let next : PersistedAgent F := { agent with
        toIndexedAgent := agent.toIndexedAgent.call engine library agentCall
        prompted := agent.prompted ++
          (agent.toIndexedAgent.prompts engine library agentCall).map RedactionEntry.placeholder }
      if agentCall.persists then next.persist write else next

/-- The agent after some calls. -/
def after (engine : Engine) (library : IndexLibrary F) (agent : PersistedAgent F)
    (calls : List (PersistedCall F)) : PersistedAgent F :=
  calls.foldl (call engine library) agent

/-- The session has the state of the redactor, so that a save now stores what restores the
redactor, with the original of every placeholder that was put into a prompt. -/
structure KeepsMapping (agent : PersistedAgent F) : Prop where
  same : agent.session.redaction = agent.redactor.state
  stores : ∃ session, (agent.persist .written).file = some (.session session) ∧
    Redactor.fromState session.redaction = some agent.redactor
  mapped : ∀ placeholder ∈ agent.prompted,
    ∃ original, agent.redactor.rev.lookup placeholder = some original

/-- The call fails to send a message, and puts a placeholder into the prompt that has no entry
yet. -/
def Loses (engine : Engine) (library : IndexLibrary F) (agent : PersistedAgent F) :
    PersistedCall F → Prop
  | .persist _ => False
  | .call agentCall _ => agentCall.persists = false ∧
      ∃ entry ∈ agent.toIndexedAgent.prompts engine library agentCall,
        entry.placeholder ∉ agent.redactor.state.entries.map RedactionEntry.placeholder

end PersistedAgent

/-! ## What a call does to the mapping -/

section Calls

variable {F : Type} [Field F] [LinearOrder F] {engine : Engine} {library : IndexLibrary F}

namespace IndexedAgent

variable {agent : IndexedAgent F} {agentCall : AgentCall F}

/-- A message that cannot be sent leaves the session's state, but not that of the redactor. -/
theorem call_of_not_persists (engine : Engine) (library : IndexLibrary F) (agent : IndexedAgent F)
    (fails : agentCall.persists = false) :
    (agent.call engine library agentCall).session.redaction = agent.session.redaction ∧
      (agent.call engine library agentCall).redactor =
        agent.redactor.upserts (agent.prompts engine library agentCall) := by
  cases agentCall with
  | sendUserMessage localAi orders userMsg outcome =>
      cases outcome with
      | ok out => contradiction
      | error problem =>
          simp only [call, sendUserMessage, prompts]
          cases (agent.pushUser library.unicode userMsg).retrieve library orders userMsg with
          | none => exact ⟨rfl, rfl⟩
          | some retrieved => exact ⟨rfl, PromptSource.redactor_assembled ..⟩
  | _ => contradiction

/-- Every other call keeps both alike. -/
theorem call_of_persists (works : agentCall.persists = true)
    (same : agent.session.redaction = agent.redactor.state) :
    (agent.call engine library agentCall).session.redaction =
      (agent.call engine library agentCall).redactor.state := by
  cases agentCall with
  | remember id nowMs content tags => exact same
  | addRedactionTerm term => rfl
  | setSystemPrompt system => exact same
  | sendUserMessage localAi orders userMsg outcome =>
      cases outcome with
      | error problem => contradiction
      | ok out =>
          simp only [call, sendUserMessage]
          cases (agent.pushUser library.unicode userMsg).retrieve library orders userMsg with
          | none => exact same
          | some retrieved => rfl

/-- Sending a message records what is put into the prompt, and then what is put into the summary. -/
theorem exists_upserts_send (engine : Engine) (library : IndexLibrary F) (agent : IndexedAgent F)
    (localAi : Option LocalAiClient) (orders : RetrievalOrders F) (userMsg : Text)
    (outcome : Except SendError Text) :
    ∃ more, (agent.sendUserMessage engine library localAi orders userMsg outcome).redactor =
      agent.redactor.upserts (agent.prompts engine library
        (.sendUserMessage localAi orders userMsg outcome) ++ more) := by
  simp only [sendUserMessage, prompts]
  cases (agent.pushUser library.unicode userMsg).retrieve library orders userMsg with
  | none => exact ⟨[], rfl⟩
  | some retrieved =>
      cases outcome with
      | error problem =>
          refine ⟨[], ?_⟩
          rw [List.append_nil]
          exact PromptSource.redactor_assembled ..
      | ok out =>
          simp only [AgentRuntime.updateSummary, AgentRuntime.turnRedacted, redactor_redactMessages,
            PromptSource.redactor_assembled, Option.elim_some, Redactor.upserts_append]
          exact ⟨_, rfl⟩

/-- The redactor keeps what it knows, and knows what a call puts into its prompt. -/
theorem redactor_call (engine : Engine) (library : IndexLibrary F) (agentCall : AgentCall F)
    (restored : agent.redactor.Restored) :
    (agent.call engine library agentCall).redactor.Restored ∧
      agent.redactor.Extended (agent.call engine library agentCall).redactor ∧
      ∀ entry ∈ agent.prompts engine library agentCall, entry.placeholder ∈
        (agent.call engine library agentCall).redactor.state.entries.map
          RedactionEntry.placeholder := by
  cases agentCall with
  | remember id nowMs content tags =>
      exact ⟨restored, .refl _, fun _ member => absurd member List.not_mem_nil⟩
  | addRedactionTerm term =>
      exact ⟨restored.addCustomTerm term, Redactor.extended_addCustomTerm agent.redactor term,
        fun _ member => absurd member List.not_mem_nil⟩
  | setSystemPrompt system =>
      exact ⟨restored, .refl _, fun _ member => absurd member List.not_mem_nil⟩
  | sendUserMessage localAi orders userMsg outcome =>
      obtain ⟨more, isLater⟩ :=
        exists_upserts_send engine library agent localAi orders userMsg outcome
      rw [call, isLater]
      refine ⟨restored.upserts _, restored.extended_upserts _, fun entry member => ?_⟩
      rw [restored.entries_upserts]
      exact mem_foldl_appendNew _ entry (List.mem_append_left more member)

/-- What the redaction of the message itself records is recorded with the prompt. -/
theorem Indexed.records_subset_prompts {first : Nat} (indexed : Indexed library.unicode first agent)
    [IsStrictOrderedRing F] (recent : 1 ≤ agent.promptCfg.maxRecentMessages) (engine : Engine)
    (localAi : Option LocalAiClient) (orders : RetrievalOrders F) (userMsg : Text)
    (outcome : Except SendError Text) :
    agent.redactor.records engine userMsg agent.redactMode agent.extraTerms ⊆
      agent.prompts engine library (.sendUserMessage localAi orders userMsg outcome) := by
  obtain ⟨retrieved, isRetrieved⟩ :=
    (indexed.pushMessage (text "user") userMsg).exists_retrieve orders userMsg
  have isRetrieved : (agent.pushUser library.unicode userMsg).retrieve library orders userMsg =
      some retrieved := isRetrieved
  intro entry member
  simp only [prompts, isRetrieved, Option.elim_some]
  apply List.mem_flatMap.mpr
  refine ⟨userMsg, ?_, member⟩
  apply List.mem_cons_of_mem
  apply List.mem_append_right
  apply List.mem_map.mpr
  refine ⟨⟨text "user", userMsg, []⟩, ?_, rfl⟩
  change _ ∈ takeLast (agent.session.messages ++ [_]) agent.promptCfg.maxRecentMessages
  rw [takeLast_eq_drop, List.drop_append_of_le_length]
  · exact List.mem_append_right _ (List.mem_singleton_self _)
  · rw [List.length_append, List.length_singleton]
    omega

end IndexedAgent

namespace PersistedAgent

variable {agent : PersistedAgent F} {persistedCall : PersistedCall F}

/-- The state restores the redactor, and has an entry for what was put into prompts. -/
structure Sound (agent : PersistedAgent F) : Prop where
  restored : agent.redactor.Restored
  mapped : ∀ placeholder ∈ agent.prompted,
    placeholder ∈ agent.redactor.state.entries.map RedactionEntry.placeholder

omit [Field F] [LinearOrder F] in
theorem Sound.persist (sound : agent.Sound) (write : SessionWrite) : (agent.persist write).Sound :=
  ⟨sound.restored, sound.mapped⟩

theorem toIndexedAgent_call (agentCall : AgentCall F) (write : SessionWrite) :
    (agent.call engine library (.call agentCall write)).toIndexedAgent =
      agent.toIndexedAgent.call engine library agentCall := by
  rw [call]
  split <;> rfl

theorem prompted_call (agentCall : AgentCall F) (write : SessionWrite) :
    (agent.call engine library (.call agentCall write)).prompted = agent.prompted ++
      (agent.toIndexedAgent.prompts engine library agentCall).map RedactionEntry.placeholder := by
  rw [call]
  split <;> rfl

/-- Every call keeps the state of the redactor complete. -/
theorem Sound.call (sound : agent.Sound) (persistedCall : PersistedCall F) :
    (agent.call engine library persistedCall).Sound := by
  cases persistedCall with
  | persist write => exact sound.persist write
  | call agentCall write =>
      obtain ⟨restored, extended, prompts⟩ :=
        IndexedAgent.redactor_call engine library agentCall sound.restored
      constructor
      · rw [toIndexedAgent_call]
        exact restored
      · rw [toIndexedAgent_call, prompted_call]
        intro placeholder member
        rcases List.mem_append.mp member with before | isNew
        · exact (extended.entries.isPrefix.map _).subset (sound.mapped placeholder before)
        · obtain ⟨entry, inPrompt, rfl⟩ := List.mem_map.mp isNew
          exact prompts entry inPrompt

/-- A call keeps the state of the session up to date exactly when it does not lose entries. -/
theorem same_call_iff (engine : Engine) (library : IndexLibrary F)
    (persistedCall : PersistedCall F) (sound : agent.Sound)
    (same : agent.session.redaction = agent.redactor.state) :
    (agent.call engine library persistedCall).session.redaction =
        (agent.call engine library persistedCall).redactor.state ↔
      ¬agent.Loses engine library persistedCall := by
  cases persistedCall with
  | persist write => exact iff_of_true same not_false
  | call agentCall write =>
      rw [toIndexedAgent_call, Loses]
      cases persists : agentCall.persists with
      | true =>
          apply iff_of_true (IndexedAgent.call_of_persists persists same)
          exact fun loses => absurd loses.1 (by simp)
      | false =>
          obtain ⟨kept, recorded⟩ :=
            IndexedAgent.call_of_not_persists engine library agent.toIndexedAgent persists
          rw [kept, recorded, same, eq_comm, sound.restored.state_upserts_iff]
          simp

omit [Field F] [LinearOrder F] in
/-- What the session stores is all that the redactor knows as soon as it has its state. -/
theorem Sound.keepsMapping_iff (sound : agent.Sound) :
    agent.KeepsMapping ↔ agent.session.redaction = agent.redactor.state := by
  constructor
  · exact KeepsMapping.same
  · intro same
    refine ⟨same, ⟨agent.session, rfl, ?_⟩, fun placeholder member => ?_⟩
    · rw [same]
      exact sound.restored
    · have known := sound.restored.mem_iff.mpr (sound.mapped placeholder member)
      exact Option.isSome_iff_exists.mp (isSome_lookup_iff.mpr known)

/-- **The stored mapping is complete in every state of a run exactly when** no message that
cannot be sent puts a placeholder into its prompt that has no entry yet. -/
theorem forall_keepsMapping_iff (engine : Engine) (library : IndexLibrary F)
    (settings : AgentSettings) (promptCfg : PromptBuildConfig) (sessionPath : Path)
    (session : Session) {redactor : Redactor} (restored : redactor.Restored) (indexMessages : Bool)
    (maxMessagesIndexed : Nat) (file : Option SessionFile) (write : SessionWrite)
    (calls : List (PersistedCall F)) :
    let agent : PersistedAgent F := .new library.unicode settings promptCfg sessionPath session
      redactor indexMessages maxMessagesIndexed file write
    (∀ made, made <+: calls → (agent.after engine library made).KeepsMapping) ↔
      ∀ made persistedCall, made ++ [persistedCall] <+: calls →
        ¬(agent.after engine library made).Loses engine library persistedCall := by
  intro agent
  have merged : agent.redactor.Restored :=
    foldl_of_preserved (fun _ term restored => restored.addCustomTerm term) restored _
  have sound : agent.Sound := ⟨merged, fun _ member => absurd member List.not_mem_nil⟩
  have preserved : ∀ (agent : PersistedAgent F) persistedCall, agent.Sound →
      (agent.call engine library persistedCall).Sound :=
    fun _ persistedCall sound => sound.call persistedCall
  have stepwise : ∀ (agent : PersistedAgent F) persistedCall, agent.Sound →
      agent.session.redaction = agent.redactor.state →
        ((agent.call engine library persistedCall).session.redaction =
            (agent.call engine library persistedCall).redactor.state ↔
          ¬agent.Loses engine library persistedCall) :=
    fun _ persistedCall sound same => same_call_iff engine library persistedCall sound same
  have soundAfter : ∀ made, (agent.after engine library made).Sound :=
    foldl_of_preserved preserved sound
  simp only [(soundAfter _).keepsMapping_iff]
  exact forall_prefix_foldl_iff preserved stepwise sound rfl calls

end PersistedAgent

end Calls

/-! ## An address -/

def basicSettings : AgentSettings :=
  { quietSettings with redactMode := .basic }

/-- A new agent that redacts addresses. -/
noncomputable def addressAgent : PersistedAgent ℝ :=
  .new realLibrary.unicode basicSettings .default [] (.new [] 0 (Block.replicate 32 0))
    (.new (Block.replicate 32 0)) true 8 none .written

def addressCall (outcome : Except SendError Text) : PersistedCall ℝ :=
  .call (.sendUserMessage none storedOrders (text "a@b.cd") outcome) .written

theorem restored_new (salt : Block 32) : (Redactor.new salt).Restored :=
  Redactor.restored_of_fromState (fromState_new salt)

/-- A question about an address that is answered. -/
theorem keepsMapping_answered :
    (addressAgent.after (.ofTable []) realLibrary
      [addressCall (.ok (text "Hello")), .persist .notOpened]).KeepsMapping := by
  refine (PersistedAgent.forall_keepsMapping_iff (.ofTable []) realLibrary basicSettings .default []
    (.new [] 0 (Block.replicate 32 0)) (restored_new (Block.replicate 32 0)) true 8 none .written
    [addressCall (.ok (text "Hello")), .persist .notOpened]).mpr ?_ _ (List.prefix_refl _)
  intro made persistedCall isPrefix loses
  have member : persistedCall ∈ [addressCall (.ok (text "Hello")), .persist .notOpened] :=
    isPrefix.subset (List.mem_append_right made (List.mem_singleton_self persistedCall))
  rcases List.mem_pair.mp member with rfl | rfl
  · exact absurd loses.1 (by decide)
  · exact loses

/-- A question about an address that cannot be sent. -/
theorem not_keepsMapping_unanswered : ¬∀ (engine : Engine) (library : IndexLibrary ℝ)
    (settings : AgentSettings) (promptCfg : PromptBuildConfig) (sessionPath : Path)
    (session : Session) (redactor : Redactor), redactor.Restored →
    ∀ (indexMessages : Bool) (maxMessagesIndexed : Nat) (file : Option SessionFile)
      (write : SessionWrite) (calls : List (PersistedCall ℝ)),
    (PersistedAgent.after engine library (.new library.unicode settings promptCfg sessionPath
      session redactor indexMessages maxMessagesIndexed file write) calls).KeepsMapping := by
  intro claim
  have keeps : (addressAgent.after (.ofTable []) realLibrary
      [addressCall (.error .sendRequest)]).KeepsMapping :=
    claim _ _ _ _ _ _ _ (restored_new (Block.replicate 32 0)) _ _ _ _ _
  have sound : addressAgent.Sound :=
    ⟨restored_new (Block.replicate 32 0), fun _ member => absurd member List.not_mem_nil⟩
  have indexed : IndexedAgent.Indexed realLibrary.unicode (IndexedAgent.firstIndexed 0 true 8)
      addressAgent.toIndexedAgent :=
    IndexedAgent.indexed_new realLibrary.unicode basicSettings .default []
      (.new [] 0 (Block.replicate 32 0)) (.new (Block.replicate 32 0)) true 8
  have records : (Redactor.new (Block.replicate 32 0)).records (.ofTable []) (text "a@b.cd") .basic
      [] ≠ [] := by decide +kernel
  obtain ⟨entry, member⟩ := List.exists_mem_of_ne_nil _ records
  have loses : addressAgent.Loses (.ofTable []) realLibrary (addressCall (.error .sendRequest)) :=
    ⟨rfl, entry, indexed.records_subset_prompts (by decide) _ none storedOrders _ _ member,
      List.not_mem_nil⟩
  have same : addressAgent.session.redaction = addressAgent.redactor.state := rfl
  exact (PersistedAgent.same_call_iff (.ofTable []) realLibrary (addressCall (.error .sendRequest))
    sound same).mp keeps.same loses

end ZkLlmGateway.Client
