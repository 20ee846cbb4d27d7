import ZkLlmGateway.Client.Persisting
import ZkLlmGateway.Transition.Saving

/-!
# Restarts of the client

A client that ends, in whatever way, is started again from its session file.  It then has
what would have come of the calls that were saved, had they been the only ones: a call that
was not saved leaves nothing, and one that was is never lost.
-/

namespace ZkLlmGateway.Client

open ZkLlmGateway.Encoding ZkLlmGateway.Common ZkLlmGateway.Transition

/-! ## The client -/

/-- The arguments that a session depends on. -/
structure Cli where
  settings : AgentSettings
  promptCfg : PromptBuildConfig
  sessionFile : Path
  system : Option Text
  resetSystem : Bool
  indexMessages : Bool
  maxMessagesIndexed : Nat

/-- What a start draws for a new session, and how its two writes end. -/
structure StartDraw where
  nowMs : Int
  salt : Block 32
  create : SessionWrite
  write : SessionWrite

namespace Cli

/-- The system prompt that is to replace the one of the session. -/
def replacement (cli : Cli) : Option Text :=
  if cli.resetSystem then cli.system else none

/-- The session of the file, or a new one, and the file then. -/
def loadOrCreate (cli : Cli) (draw : StartDraw) :
    Option SessionFile → Option (Session × Option SessionFile)
  | some file => (loadSession file draw.nowMs draw.salt).map fun session => (session, some file)
  | none =>
      let session := Session.new (cli.system.getD (text "You are a helpful assistant."))
        draw.nowMs draw.salt
      some (session, draw.create.leaves session)

def resetSession (cli : Cli) (session : Session) : Session :=
  cli.replacement.elim session fun system => { session with systemPrompt := system }

end Cli

/-- The client's process and its session file. -/
inductive ClientProcess (F : Type)
  | stopped (file : Option SessionFile)
  | running (agent : PersistedAgent F)

inductive ProcessEvent (F : Type)
  | start (draw : StartDraw)
  | call (persistedCall : PersistedCall F)
  /-- The process ends, or is ended. -/
  | stop

def ClientProcess.file {F : Type} : ClientProcess F → Option SessionFile
  | .stopped file => file
  | .running agent => agent.file

def ClientProcess.agent {F : Type} : ClientProcess F → Option (IndexedAgent F)
  | .stopped _ => none
  | .running agent => some agent.toIndexedAgent

section Runs

variable {F : Type} [Field F]

/-- `main` up to `AgentRuntime::new`, which saves the session.  A start that fails for want of a
key, the local summarizer, the ticket source or the HTTP client is left out. -/
def Cli.start (unicode : Unicode) (cli : Cli) (file : Option SessionFile) (draw : StartDraw) :
    ClientProcess F :=
  match cli.loadOrCreate draw file with
  | none => .stopped file
  | some (session, file) =>
      let session := cli.resetSession session
      match Redactor.fromState session.redaction with
      | none => .stopped file
      | some redactor =>
          .running (.new unicode cli.settings cli.promptCfg cli.sessionFile session redactor
            cli.indexMessages cli.maxMessagesIndexed file draw.write)

variable [LinearOrder F]

def ClientProcess.step (engine : Engine) (library : IndexLibrary F) (cli : Cli) :
    ClientProcess F → ProcessEvent F → Option (ClientProcess F)
  | .stopped file, .start draw => some (cli.start library.unicode file draw)
  | .running agent, .call persistedCall => some (.running (agent.call engine library persistedCall))
  | .running agent, .stop => some (.stopped agent.file)
  | _, _ => none

def ClientProcess.system (engine : Engine) (library : IndexLibrary F) (cli : Cli) :
    System (ClientProcess F) (ProcessEvent F) where
  init client := client = .stopped none
  step := ClientProcess.step engine library cli

end Runs

/-! ## The journal of a client -/

def SessionWrite.saves : SessionWrite → Saves
  | .written => .whole
  | .notOpened => .nothing
  | .truncated _ => .torn

/-- What a call does to the session file. -/
def PersistedCall.saves {F : Type} : PersistedCall F → Saves
  | .persist write => write.saves
  | .call agentCall write => if agentCall.persists then write.saves else .nothing

/-- What a start does with the session that it has loaded, as a call. -/
def Cli.startCall {F : Type} (cli : Cli) (draw : StartDraw) : PersistedCall F :=
  cli.replacement.elim (.persist draw.write) fun system =>
    .call (.setSystemPrompt system) draw.write

section Journal

variable {F : Type}

/-- What an event adds to the journal. -/
def Cli.record (cli : Cli) (journal : Journal (PersistedCall F)) :
    ProcessEvent F → Journal (PersistedCall F)
  | .start draw =>
      let startCall : PersistedCall F := cli.startCall draw
      journal.perform startCall startCall.saves
  | .call persistedCall => journal.perform persistedCall persistedCall.saves
  | .stop => journal.crash

/-- The journal of a client that finds a session file. -/
def Cli.journal (cli : Cli) (events : List (ProcessEvent F)) : Journal (PersistedCall F) :=
  events.foldl cli.record .empty

end Journal

/-! ## A conversation -/

def RedactionState.bare (state : RedactionState) : RedactionState :=
  { state with entries := [] }

/-- A redactor that has not replaced anything yet. -/
def Redactor.bare (red : Redactor) : Redactor where
  salt := red.salt
  rev := []
  state := red.state.bare

namespace AgentRuntime

/-- An agent without the entries of its mapping. -/
def bare (agent : AgentRuntime) : AgentRuntime :=
  { agent with
    session := { agent.session with redaction := agent.session.redaction.bare }
    redactor := agent.redactor.bare }

def say (agent : AgentRuntime) (role content : Text) : AgentRuntime :=
  { agent with session :=
    { agent.session with messages := agent.session.messages ++ [⟨role, content, []⟩] } }

/-- The state of the redactor is given to the session. -/
def keepState (agent : AgentRuntime) : AgentRuntime :=
  { agent with session := { agent.session with redaction := agent.redactor.state } }

/-- What a call means for an agent that has neither an index nor a mapping. -/
def converse {F : Type} (engine : Engine) (agent : AgentRuntime) : AgentCall F → AgentRuntime
  | .remember id nowMs content tags =>
      { agent with session := agent.session.pushMemory id nowMs content tags }
  | .addRedactionTerm term =>
      keepState { agent with redactor := agent.redactor.addCustomTerm term }
  | .setSystemPrompt system =>
      { agent with session := { agent.session with systemPrompt := system } }
  | .sendUserMessage _ _ userMsg (.error _) => agent.say (text "user") userMsg
  | .sendUserMessage localAi _ userMsg (.ok out) =>
      (((agent.say (text "user") userMsg).say (text "assistant") out).updateSummary engine
        localAi).bare.keepState

end AgentRuntime

section Conversation

variable {engine : Engine}

theorem Redactor.bare_upserts (red : Redactor) (entries : List RedactionEntry) :
    (red.upserts entries).bare = red.bare := by
  rw [bare, bare, RedactionState.bare, RedactionState.bare, salt_upserts, saltB64_upserts,
    customTerms_upserts]

theorem Redactor.bare_addCustomTerm (red : Redactor) (term : Text) :
    (red.addCustomTerm term).bare = red.bare.addCustomTerm term := by
  unfold addCustomTerm
  split
  next => rfl
  next =>
    change _ = if term ∈ red.state.customTerms then _ else _
    split <;> rfl

/-- What a redaction writes depends on the salt and the terms only. -/
theorem Redactor.redact_bare (engine : Engine) (red : Redactor) (content : Text)
    (mode : RedactMode) (extraTerms : List Text) :
    (red.bare.redact engine content mode extraTerms).1 =
      (red.redact engine content mode extraTerms).1 := by
  rw [redact_eq, redact_eq]
  exact ((foldl_run engine _ content red.bare).1).trans (foldl_run engine _ content red).1.symm

theorem redactMessages_bare (engine : Engine) (mode : RedactMode) (extraTerms : List Text)
    (red : Redactor) (messages : List ChatMessage) :
    (redactMessages engine mode extraTerms red.bare messages).1 =
      (redactMessages engine mode extraTerms red messages).1 := by
  induction messages generalizing red with
  | nil => rfl
  | cons message messages inductionHypothesis =>
      have rest : ∀ entries : List RedactionEntry,
          (redactMessages engine mode extraTerms (red.bare.upserts entries) messages).1 =
            (redactMessages engine mode extraTerms red messages).1 := by
        intro entries
        rw [← inductionHypothesis, Redactor.bare_upserts]
        exact inductionHypothesis red
      have others : ∀ entries : List RedactionEntry,
          (redactMessages engine mode extraTerms (red.upserts entries) messages).1 =
            (redactMessages engine mode extraTerms red messages).1 := by
        intro entries
        rw [← inductionHypothesis, Redactor.bare_upserts, inductionHypothesis]
      simp only [redactMessages, Redactor.redact_bare, Redactor.redact_eq_upserts, rest, others]

namespace AgentRuntime

theorem bare_updateSummary (localAi : Option LocalAiClient) (agent : AgentRuntime) :
    (agent.bare.updateSummary engine localAi).bare = (agent.updateSummary engine localAi).bare := by
  have same : (agent.bare.turnRedacted engine).1 = (agent.turnRedacted engine).1 :=
    redactMessages_bare ..
  have kept : (agent.bare.turnRedacted engine).2.bare = (agent.turnRedacted engine).2.bare := by
    rw [turnRedacted, turnRedacted, redactor_redactMessages, redactor_redactMessages,
      Redactor.bare_upserts, Redactor.bare_upserts]
    rfl
  rcases bareTurn : agent.bare.turnRedacted engine with ⟨turn, red⟩
  rcases isTurn : agent.turnRedacted engine with ⟨_, other⟩
  rw [bareTurn, isTurn] at same kept
  cases same
  simp only [updateSummary, bareTurn, isTurn]
  apply AgentRuntime.mk.injEq .. |>.mpr
  exact ⟨rfl, rfl, rfl, kept⟩

end AgentRuntime

variable {F : Type} [Field F] [LinearOrder F] [IsStrictOrderedRing F] {library : IndexLibrary F}

/-- Without its index and its mapping, an agent goes through a call as a conversation does. -/
theorem IndexedAgent.Indexed.bare_call {first : Nat} {agent : IndexedAgent F}
    (indexed : IndexedAgent.Indexed library.unicode first agent) (engine : Engine)
    (agentCall : AgentCall F) :
    (agent.call engine library agentCall).bare = agent.bare.converse engine agentCall := by
  cases agentCall with
  | remember id nowMs content tags => rfl
  | addRedactionTerm term =>
      change _ = AgentRuntime.keepState { agent.bare with
        redactor := agent.redactor.bare.addCustomTerm term }
      rw [← Redactor.bare_addCustomTerm]
      rfl
  | setSystemPrompt system => rfl
  | sendUserMessage localAi orders userMsg outcome =>
      have pushed : Indexed library.unicode first (agent.pushUser library.unicode userMsg) :=
        indexed.pushMessage (text "user") userMsg
      obtain ⟨retrieved, isRetrieved⟩ := pushed.exists_retrieve orders userMsg
      have kept : ((agent.pushUser library.unicode userMsg).promptSource retrieved).assembled engine
          (agent.pushUser library.unicode userMsg).redactor |>.2.bare = agent.redactor.bare := by
        rw [PromptSource.redactor_assembled]
        exact Redactor.bare_upserts ..
      simp only [IndexedAgent.call, IndexedAgent.sendUserMessage, isRetrieved]
      generalize (((agent.pushUser library.unicode userMsg).promptSource retrieved).assembled engine
        (agent.pushUser library.unicode userMsg).redactor).2 = redactor at kept ⊢
      have same : ({ agent.toAgentRuntime with redactor := redactor } : AgentRuntime).bare =
          agent.bare := AgentRuntime.mk.injEq .. |>.mpr ⟨rfl, rfl, rfl, kept⟩
      cases outcome with
      | error problem => exact congrArg (·.say (text "user") userMsg) same
      | ok out =>
          let answered : AgentRuntime := AgentRuntime.say (AgentRuntime.say
            { agent.toAgentRuntime with redactor := redactor } (text "user") userMsg)
            (text "assistant") out
          have heard : answered.bare = ((agent.bare.say (text "user") userMsg).say
              (text "assistant") out) :=
            congrArg (fun agent => (AgentRuntime.say agent (text "user") userMsg).say
              (text "assistant") out) same
          change (answered.updateSummary engine localAi).bare.keepState = _
          rw [AgentRuntime.converse, ← AgentRuntime.bare_updateSummary, heard]

end Conversation

/-! ## What is settled in a session -/

namespace Cli

/-- The agent has the arguments, and its session has what they say of the redaction. -/
structure Settled (cli : Cli) (agent : AgentRuntime) : Prop where
  settings : agent.toAgentSettings = cli.settings
  sessionPath : agent.sessionPath = cli.sessionFile
  decodes : decodeB64x32 agent.redactor.state.saltB64 = some agent.redactor.salt
  kept : agent.session.redaction.bare = agent.redactor.state.bare
  merged : ∀ term ∈ cli.settings.extraTerms,
    (trim term).isEmpty = true ∨ term ∈ agent.redactor.state.customTerms

variable {cli : Cli} {agent : AgentRuntime}

theorem settled_bare : cli.Settled agent.bare ↔ cli.Settled agent := by
  constructor
  · rintro ⟨settings, sessionPath, decodes, kept, merged⟩
    exact ⟨settings, sessionPath, decodes, kept, merged⟩
  · rintro ⟨settings, sessionPath, decodes, kept, merged⟩
    exact ⟨settings, sessionPath, decodes, kept, merged⟩

theorem Settled.addRedactionTerm (settled : cli.Settled agent) (term : Text) :
    cli.Settled (AgentRuntime.keepState { agent with
      redactor := agent.redactor.addCustomTerm term }) := by
  have extended := agent.redactor.extended_addCustomTerm term
  constructor
  · exact settled.settings
  · exact settled.sessionPath
  · change decodeB64x32 (agent.redactor.addCustomTerm term).state.saltB64 =
      some (agent.redactor.addCustomTerm term).salt
    rw [extended.saltB64, extended.salt]
    exact settled.decodes
  · rfl
  · intro other member
    exact (settled.merged other member).imp_right fun known =>
      extended.customTerms.isPrefix.subset known

theorem Settled.updateSummary (settled : cli.Settled agent) (engine : Engine)
    (localAi : Option LocalAiClient) :
    cli.Settled (agent.updateSummary engine localAi).bare.keepState := by
  have bare : (agent.updateSummary engine localAi).redactor.bare = agent.redactor.bare := by
    change (agent.turnRedacted engine).2.bare = _
    rw [AgentRuntime.turnRedacted, redactor_redactMessages, Redactor.bare_upserts]
  have state : (agent.updateSummary engine localAi).bare.keepState.redactor =
      agent.redactor.bare := bare
  constructor
  · exact settled.settings
  · exact settled.sessionPath
  · rw [state]
    exact settled.decodes
  · rfl
  · rw [state]
    exact settled.merged

/-- Every call leaves it settled. -/
theorem Settled.converse {F : Type} (settled : cli.Settled agent) (engine : Engine)
    (agentCall : AgentCall F) : cli.Settled (agent.converse engine agentCall) := by
  have said : ∀ (agent : AgentRuntime) (role content : Text), cli.Settled agent →
      cli.Settled (agent.say role content) := by
    rintro agent role content ⟨settings, sessionPath, decodes, kept, merged⟩
    exact ⟨settings, sessionPath, decodes, kept, merged⟩
  cases agentCall with
  | remember id nowMs content tags =>
      exact ⟨settled.settings, settled.sessionPath, settled.decodes, settled.kept, settled.merged⟩
  | addRedactionTerm term => exact settled.addRedactionTerm term
  | setSystemPrompt system =>
      exact ⟨settled.settings, settled.sessionPath, settled.decodes, settled.kept, settled.merged⟩
  | sendUserMessage localAi orders userMsg outcome =>
      cases outcome with
      | error problem => exact said _ _ _ settled
      | ok out => exact (said _ _ _ (said _ _ _ settled)).updateSummary engine localAi

end Cli

/-! ## Loading a session again -/

/-- Terms that are known, or blank, are not added. -/
theorem Redactor.foldl_addCustomTerm_of_known {red : Redactor} {terms : List Text}
    (known : ∀ term ∈ terms, (trim term).isEmpty = true ∨ term ∈ red.state.customTerms) :
    terms.foldl addCustomTerm red = red := by
  induction terms with
  | nil => rfl
  | cons term terms inductionHypothesis =>
      have isSame : red.addCustomTerm term = red := by
        unfold addCustomTerm
        rcases known term List.mem_cons_self with isBlank | member
        · rw [if_pos isBlank]
        · rw [if_pos member, ite_self]
      rw [List.foldl_cons, isSame]
      exact inductionHypothesis fun other member => known other (List.mem_cons_of_mem term member)

theorem Redactor.mem_addCustomTerm {red : Redactor} {term : Text}
    (isTerm : ¬(trim term).isEmpty = true) : term ∈ (red.addCustomTerm term).state.customTerms := by
  unfold addCustomTerm
  rw [if_neg isTerm]
  split
  next known => exact known
  next => exact List.mem_append_right _ (List.mem_singleton_self term)

/-- Terms that are added are known then, unless they are blank. -/
theorem Redactor.known_foldl_addCustomTerm (red : Redactor) (terms : List Text) :
    ∀ term ∈ terms, (trim term).isEmpty = true ∨
      term ∈ (terms.foldl addCustomTerm red).state.customTerms := by
  induction terms generalizing red with
  | nil => exact fun _ member => absurd member List.not_mem_nil
  | cons first terms inductionHypothesis =>
      intro term member
      rcases List.mem_cons.mp member with rfl | later
      · by_cases isBlank : (trim term).isEmpty = true
        · exact .inl isBlank
        · right
          have kept : ∀ (red : Redactor) other, term ∈ red.state.customTerms →
              term ∈ (red.addCustomTerm other).state.customTerms := fun red other known =>
            (red.extended_addCustomTerm other).customTerms.isPrefix.subset known
          exact foldl_of_preserved kept (mem_addCustomTerm isBlank) terms
      · exact inductionHypothesis (red.addCustomTerm first) term later

namespace Cli

variable {F : Type} [Field F]

/-- The agent that a start makes of a session, before it does anything else. -/
def opened (unicode : Unicode) (cli : Cli) (session : Session) (redactor : Redactor) :
    IndexedAgent F :=
  .new unicode cli.settings cli.promptCfg cli.sessionFile session redactor cli.indexMessages
    cli.maxMessagesIndexed

/-- The file has a session, of which a start makes this agent. -/
def Opens (unicode : Unicode) (cli : Cli) (file : Option SessionFile) (agent : IndexedAgent F) :
    Prop :=
  ∃ session redactor, file = some (.session session) ∧
    Redactor.fromState session.redaction = some redactor ∧
      agent = cli.opened unicode session redactor

/-- The agent is what the specification says, apart from its index and its mapping. -/
structure Refines (unicode : Unicode) (cli : Cli) (agent : IndexedAgent F) (state : AgentRuntime) :
    Prop where
  same : agent.bare = state
  settled : cli.Settled agent.toAgentRuntime
  indexed : ∃ first, IndexedAgent.Indexed unicode first agent

variable {unicode : Unicode} {cli : Cli}

theorem settled_opened {session : Session} {redactor : Redactor}
    (restores : Redactor.fromState session.redaction = some redactor) :
    cli.Settled (cli.opened unicode session redactor : IndexedAgent F).toAgentRuntime := by
  have restored : (cli.opened unicode session redactor : IndexedAgent F).redactor.Restored :=
    foldl_of_preserved (fun _ term restored => restored.addCustomTerm term)
      (Redactor.restored_of_fromState restores) _
  constructor
  · rfl
  · rfl
  · exact (Redactor.restored_iff.mp restored).1
  · rfl
  · intro term member
    exact redactor.known_foldl_addCustomTerm _ term (List.mem_append_right _ member)

/-- What is saved of an agent is loaded as the same agent. -/
theorem Refines.exists_opens {agent : IndexedAgent F} {state : AgentRuntime}
    (refines : cli.Refines unicode agent state) :
    ∃ loaded : IndexedAgent F, cli.Opens unicode (some (.session agent.session)) loaded ∧
      cli.Refines unicode loaded state := by
  have settled := refines.settled
  obtain ⟨saltB64, -, customTerms⟩ := (RedactionState.mk.injEq ..).mp settled.kept
  obtain ⟨redactor, restores⟩ : ∃ redactor,
      Redactor.fromState agent.session.redaction = some redactor := by
    rw [Redactor.fromState, saltB64, settled.decodes]
    exact ⟨_, rfl⟩
  have isState := Redactor.state_of_fromState restores
  have isSalt : redactor.salt = agent.redactor.salt := by
    have decodes := (Redactor.restored_iff.mp (Redactor.restored_of_fromState restores)).1
    rw [isState, saltB64, settled.decodes] at decodes
    exact (Option.some.inj decodes).symm
  have merged : (agent.session.redaction.customTerms ++ cli.settings.extraTerms).foldl
      Redactor.addCustomTerm redactor = redactor := by
    apply Redactor.foldl_addCustomTerm_of_known
    intro term member
    rw [isState]
    rcases List.mem_append.mp member with before | extra
    · exact .inr before
    · rw [customTerms]
      exact settled.merged term extra
  refine ⟨cli.opened unicode agent.session redactor, ⟨_, _, rfl, restores, rfl⟩, ?_,
    settled_opened restores, ⟨_, IndexedAgent.indexed_new ..⟩⟩
  rw [← refines.same]
  apply AgentRuntime.mk.injEq .. |>.mpr
  refine ⟨settled.settings.symm, settled.sessionPath.symm, ?_, ?_⟩
  · change { agent.session with redaction :=
      ((agent.session.redaction.customTerms ++ cli.settings.extraTerms).foldl
        Redactor.addCustomTerm redactor).state.bare } = _
    rw [merged, isState]
  · change ((agent.session.redaction.customTerms ++ cli.settings.extraTerms).foldl
      Redactor.addCustomTerm redactor).bare = _
    rw [merged, Redactor.bare, Redactor.bare, isSalt, isState, settled.kept]

end Cli

/-! ## Runs -/

section Runs

variable {F : Type} [Field F] [LinearOrder F] [IsStrictOrderedRing F] {engine : Engine}
  {library : IndexLibrary F} {cli : Cli} {session : Session} {redactor : Redactor}

/-- What a call of a process means. -/
def AgentRuntime.perform (engine : Engine) (state : AgentRuntime) : PersistedCall F → AgentRuntime
  | .persist _ => state
  | .call agentCall _ => state.converse engine agentCall

/-- What comes of calls that are made of a session without interruption. -/
def Cli.conversation (engine : Engine) (cli : Cli) (session : Session) (redactor : Redactor)
    (calls : List (PersistedCall F)) : AgentRuntime :=
  calls.foldl (AgentRuntime.perform engine)
    (AgentRuntime.new cli.settings cli.sessionFile session redactor).bare

/-- The process and its file are what the events so far make of the session. -/
structure Cli.Recovered (engine : Engine) (library : IndexLibrary F) (cli : Cli)
    (session : Session) (redactor : Redactor) (events : List (ProcessEvent F))
    (process : ClientProcess F) : Prop where
  /-- A process that runs has what was saved and what was called since. -/
  live : ∀ agent, process = .running agent →
    agent.bare = cli.conversation engine session redactor (cli.journal events).made
  /-- A start would have what was saved. -/
  stored : (cli.journal events).torn = false → ∀ draw, ∃ agent : PersistedAgent F,
    cli.start library.unicode process.file draw = .running agent ∧
      agent.bare = cli.conversation engine session redactor
        ((cli.journal events).saved ++ [cli.startCall draw])
  kept : ∀ before, before <+: events → (cli.journal before).saved <+: (cli.journal events).saved

theorem Cli.Refines.perform {agent : PersistedAgent F} {state : AgentRuntime}
    (refines : cli.Refines library.unicode agent.toIndexedAgent state)
    (persistedCall : PersistedCall F) :
    cli.Refines library.unicode (agent.call engine library persistedCall).toIndexedAgent
      (state.perform engine persistedCall) := by
  cases persistedCall with
  | persist write => exact refines
  | call agentCall write =>
      obtain ⟨first, indexed⟩ := refines.indexed
      have same := indexed.bare_call engine agentCall
      rw [PersistedAgent.toIndexedAgent_call]
      refine ⟨?_, ?_, first, indexed.call agentCall⟩
      · rw [same, refines.same]
        rfl
      · rw [← Cli.settled_bare, same]
        exact (Cli.settled_bare.mpr refines.settled).converse engine agentCall

omit [IsStrictOrderedRing F] in
/-- What a call leaves in the file. -/
theorem file_call (engine : Engine) (library : IndexLibrary F) (agent : PersistedAgent F)
    (persistedCall : PersistedCall F) :
    (persistedCall.saves = .nothing →
      (agent.call engine library persistedCall).file = agent.file) ∧
    (persistedCall.saves = .whole → (agent.call engine library persistedCall).file =
      some (.session (agent.call engine library persistedCall).session)) := by
  have persisted : ∀ (agent : PersistedAgent F) (write : SessionWrite),
      (write.saves = .nothing → (agent.persist write).file = agent.file) ∧
        (write.saves = .whole → (agent.persist write).file =
          some (.session (agent.persist write).session)) := by
    intro agent write
    cases write with
    | written => exact ⟨fun isNothing => by contradiction, fun _ => rfl⟩
    | notOpened => exact ⟨fun _ => rfl, fun isWhole => by contradiction⟩
    | truncated left => exact ⟨fun isNothing => by contradiction, fun isWhole => by contradiction⟩
  cases persistedCall with
  | persist write => exact persisted agent write
  | call agentCall write =>
      rw [PersistedCall.saves, PersistedAgent.call]
      cases agentCall.persists with
      | true => exact persisted _ write
      | false => exact ⟨fun _ => rfl, fun isWhole => by contradiction⟩

omit [IsStrictOrderedRing F] in
/-- A start of a session is a call of the agent that is made of it. -/
theorem Cli.start_eq (engine : Engine) {loaded : IndexedAgent F} {file : Option SessionFile}
    (opens : cli.Opens library.unicode file loaded) (draw : StartDraw) :
    ∃ agent : PersistedAgent F, agent.toIndexedAgent = loaded ∧ agent.file = file ∧
      cli.start library.unicode file draw =
        .running (agent.call engine library (cli.startCall draw)) := by
  obtain ⟨session, redactor, rfl, restores, rfl⟩ := opens
  refine ⟨{ cli.opened library.unicode session redactor with
    file := some (.session session)
    prompted := [] }, rfl, rfl, ?_⟩
  have restores : Redactor.fromState (cli.resetSession session).redaction = some redactor := by
    rw [Cli.resetSession]
    cases cli.replacement with
    | none => exact restores
    | some system => exact restores
  have opened : cli.loadOrCreate draw (some (.session session)) =
      some (session, some (.session session)) := rfl
  rw [Cli.start, opened]
  simp only [restores]
  rw [Cli.resetSession, Cli.startCall]
  cases cli.replacement with
  | none => rfl
  | some system => rfl

/-- The journal is the one of the process. -/
def Cli.Follows (engine : Engine) (library : IndexLibrary F) (cli : Cli) (session : Session)
    (redactor : Redactor) (journal : Journal (PersistedCall F)) (process : ClientProcess F) :
    Prop :=
  Recovers (AgentRuntime.perform engine) (cli.Refines library.unicode) (cli.Opens library.unicode)
    (AgentRuntime.new cli.settings cli.sessionFile session redactor).bare journal process.file
    process.agent

variable {journal : Journal (PersistedCall F)} {process final : ClientProcess F}

theorem Cli.Follows.call {agent : PersistedAgent F}
    (follows : cli.Follows engine library session redactor journal (.running agent))
    (persistedCall : PersistedCall F) :
    cli.Follows engine library session redactor (journal.perform persistedCall persistedCall.saves)
      (.running (agent.call engine library persistedCall)) := by
  have left := file_call engine library agent persistedCall
  apply Recovers.perform follows
  · exact fun state refines => refines.perform persistedCall
  · exact left.1
  · intro isWhole state refines
    change ∃ loaded, cli.Opens library.unicode (agent.call engine library persistedCall).file _ ∧ _
    rw [left.2 isWhole]
    exact refines.exists_opens

/-- Every event is recorded. -/
theorem Cli.Follows.step {event : ProcessEvent F}
    (follows : cli.Follows engine library session redactor journal process)
    (stepped : process.step engine library cli event = some final)
    (untorn : ∀ draw, event = .start draw → journal.torn = false) :
    cli.Follows engine library session redactor (cli.record journal event) final := by
  cases process with
  | stopped file =>
      cases event with
      | start draw =>
          cases stepped
          obtain ⟨loaded, opens, restarted⟩ := Recovers.load follows (untorn draw rfl)
          have opens : cli.Opens library.unicode file loaded := opens
          obtain ⟨agent, rfl, isFile, started⟩ := Cli.start_eq engine opens draw
          rw [started]
          subst isFile
          have running : cli.Follows engine library session redactor journal (.running agent) :=
            restarted
          exact running.call (cli.startCall draw)
      | _ => contradiction
  | running agent =>
      cases event with
      | start draw => contradiction
      | call persistedCall =>
          cases stepped
          exact follows.call persistedCall
      | stop =>
          cases stepped
          exact Recovers.crash follows

theorem Cli.Follows.run {events : List (ProcessEvent F)}
    (follows : cli.Follows engine library session redactor journal process)
    (replayed : (ClientProcess.system engine library cli).run process events = some final)
    (untorn : ∀ before draw, before ++ [.start draw] <+: events →
      (before.foldl cli.record journal).torn = false) :
    cli.Follows engine library session redactor (events.foldl cli.record journal) final := by
  induction events generalizing journal process with
  | nil =>
      cases replayed
      exact follows
  | cons event events inductionHypothesis =>
      obtain ⟨next, stepped, rest⟩ := Option.bind_eq_some_iff.mp replayed
      have followed := follows.step stepped fun draw isStart => by
        apply untorn [] draw
        rw [List.nil_append, isStart]
        exact List.prefix_append [_] events
      apply inductionHypothesis followed rest
      intro before draw isPrefix
      exact untorn (event :: before) draw ((List.prefix_cons_inj event).mpr isPrefix)

omit [Field F] [LinearOrder F] [IsStrictOrderedRing F] in
/-- What is saved stays saved. -/
theorem Cli.saved_isPrefix_journal (cli : Cli) {before events : List (ProcessEvent F)}
    (isPrefix : before <+: events) : (cli.journal before).saved <+: (cli.journal events).saved := by
  obtain ⟨later, rfl⟩ := isPrefix
  rw [Cli.journal, Cli.journal, List.foldl_append]
  have kept : ∀ journal event, (cli.journal before).saved <+: Journal.saved journal →
      (cli.journal before).saved <+: (cli.record journal event).saved := by
    intro journal event earlier
    cases event with
    | start draw => exact earlier.trans (journal.saved_isPrefix_perform _ _)
    | call persistedCall => exact earlier.trans (journal.saved_isPrefix_perform _ _)
    | stop => exact earlier
  exact foldl_of_preserved kept (List.prefix_refl _) later

/-- **A client survives its crashes**: however often it ends and is started again from a session
file, it has what was saved and what was called since, every start finds what was saved, and what
was saved stays so, as long as no start meets a file whose last write was cut off. -/
theorem Cli.recovered_of_run {events : List (ProcessEvent F)}
    (restores : Redactor.fromState session.redaction = some redactor)
    (replayed : (ClientProcess.system engine library cli).run
      (.stopped (some (.session session))) events = some final)
    (untorn : ∀ before draw, before ++ [.start draw] <+: events →
      (cli.journal before).torn = false) :
    cli.Recovered engine library session redactor events final := by
  have opened : cli.Refines library.unicode
      (cli.opened library.unicode session redactor : IndexedAgent F)
      (AgentRuntime.new cli.settings cli.sessionFile session redactor).bare :=
    ⟨rfl, Cli.settled_opened restores, ⟨_, IndexedAgent.indexed_new ..⟩⟩
  have start : cli.Follows engine library session redactor .empty
      (.stopped (some (.session session))) := by
    constructor
    · intro _ isSome
      contradiction
    · exact fun _ => ⟨_, ⟨session, redactor, rfl, restores, rfl⟩, opened⟩
    · exact fun _ => rfl
  have follows := start.run replayed untorn
  constructor
  · rintro agent rfl
    exact (Recovers.live follows _ rfl).same
  · intro isWhole draw
    obtain ⟨loaded, opens, refines⟩ := Recovers.stored follows isWhole
    obtain ⟨agent, rfl, _, started⟩ := Cli.start_eq engine opens draw
    refine ⟨_, started, ?_⟩
    rw [Cli.conversation, List.foldl_append]
    exact (refines.perform (cli.startCall draw)).same
  · exact fun before isPrefix => cli.saved_isPrefix_journal isPrefix

end Runs

/-! ## A client that is ended -/

def basicCli : Cli where
  settings := basicSettings
  promptCfg := .default
  sessionFile := []
  system := none
  resetSystem := false
  indexMessages := true
  maxMessagesIndexed := 8

def quietStart : StartDraw where
  nowMs := 0
  salt := Block.replicate 32 0
  create := .written
  write := .notOpened

/-- A client notes something, asks what is not answered, and ends. -/
noncomputable def endedEvents : List (ProcessEvent ℝ) :=
  [.start quietStart,
    .call (.call (.remember (Block.replicate 16 0) 0 (text "Tea") []) .written),
    .call (addressCall (.error .sendRequest)),
    .stop]

/-- The note is found again, and the question is not. -/
theorem recovered_ended : ∃ final,
    (ClientProcess.system (.ofTable []) realLibrary basicCli).run
      (.stopped (some (.session (.new [] 0 (Block.replicate 32 0))))) endedEvents = some final ∧
    ∃ agent : PersistedAgent ℝ,
      basicCli.start realLibrary.unicode final.file quietStart = .running agent ∧
      agent.session.messages = [] ∧ agent.session.memory.map MemoryItem.text = [text "Tea"] := by
  have restores : Redactor.fromState (Session.new [] 0 (Block.replicate 32 0)).redaction =
    some (.new (Block.replicate 32 0)) := fromState_new (Block.replicate 32 0)
  obtain ⟨final, replayed⟩ : ∃ final, (ClientProcess.system (.ofTable []) realLibrary basicCli).run
      (.stopped (some (.session (.new [] 0 (Block.replicate 32 0))))) endedEvents = some final :=
    ⟨_, rfl⟩
  have untorn : ∀ before draw, before ++ [.start draw] <+: endedEvents →
      (basicCli.journal before).torn = false := by
    rintro before draw ⟨later, same⟩
    rcases before with _ | ⟨first, _ | ⟨second, _ | ⟨third, _ | ⟨fourth, before⟩⟩⟩⟩
    · rfl
    all_goals simp [endedEvents] at same
  have recovered := Cli.recovered_of_run restores replayed untorn
  obtain ⟨again, restarted, same⟩ := recovered.stored rfl quietStart
  refine ⟨final, replayed, again, restarted, ?_, ?_⟩
  · exact congrArg (fun agent : AgentRuntime => agent.session.messages) same
  · exact congrArg (fun agent : AgentRuntime => agent.session.memory.map MemoryItem.text) same

end ZkLlmGateway.Client
