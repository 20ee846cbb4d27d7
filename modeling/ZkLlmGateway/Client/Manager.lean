import ZkLlmGateway.Client.Agent
import ZkLlmGateway.Client.Sessions
import ZkLlmGateway.Transition.System
import Mathlib.Logic.Function.Basic

/-!
# Many calls over one session manager

Any number of `create_session` and `get_or_load` calls run at once, with the
agents that are in memory.  A call is suspended wherever it reads or writes a
session file or the map of sessions; only the map is behind the lock.  A file is
written in one step, which may fail.
-/

namespace ZkLlmGateway.Client

open ZkLlmGateway.Encoding ZkLlmGateway.Common ZkLlmGateway.Transition

/-! ## Session files -/

/-- What a session file is read as. -/
inductive SessionFile
  | session (session : Session)
  /-- The bare list of messages an earlier version stored. -/
  | history (messages : List ChatMessage)
  | unreadable

def loadSession (file : SessionFile) (nowMs : Int) (salt : Block 32) : Option Session :=
  match file with
  | .session session => some session
  | .history messages =>
      some { Session.new (text "You are a helpful assistant.") nowMs salt with
        messages := messages }
  | .unreadable => none

/-- How `save_session` ends.  A file that was opened is truncated, and a failed write may
leave anything. -/
inductive SessionWrite
  | written
  | notOpened
  | truncated (left : SessionFile)

/-- The new content of the file, if it changes. -/
def SessionWrite.leaves (session : Session) : SessionWrite → Option SessionFile
  | written => some (.session session)
  | notOpened => none
  | truncated left => some left

/-- Where a file is. -/
abbrev Location := List Bytes

/-! ## Calls -/

inductive ManagerError
  | sessionId (error : SessionIdError)
  | alreadyExists
  | saveNewSession
  | loadSession
  | initRedactor
  | buildHttpClient
  deriving DecidableEq

/-- The message of the error, without its causes. -/
def ManagerError.message : ManagerError → Text
  | sessionId error => error.message
  | alreadyExists => text "session already exists"
  | saveNewSession => text "save new session"
  | loadSession => text "load session"
  | initRedactor => text "init redactor"
  | buildHttpClient => text "build http client"

inductive SessionRequest
  | create (systemPrompt : Text)
  | load

/-- What a call does next.  The origin of an agent is the session it is built from. -/
inductive Phase
  /-- Does the file of the new session exist? -/
  | checking
  /-- Save a new session. -/
  | saving
  /-- Look the session up. -/
  | reading
  /-- Take the write lock and look the session up again. -/
  | locking
  /-- With the lock: does the file exist? -/
  | opening
  | loading
  /-- Save a new session with the default prompt. -/
  | starting
  /-- `build_agent`, up to its save. -/
  | building (origin : Session)
  /-- `AgentRuntime::new`, up to its save. -/
  | merged (origin session : Session) (redactor : Redactor)
  | inserting (origin : Session) (agent : AgentRuntime)
  | returned (result : Except ManagerError Unit)

namespace Phase

/-- The call holds the write lock. -/
def isLocked : Phase → Bool
  | opening | loading | starting | building _ | merged _ _ _ | inserting _ _ => true
  | _ => false

def isReturned : Phase → Bool
  | returned _ => true
  | _ => false

end Phase

/-- A call in progress or returned.  `foundNone` and `created` are history: it has found no
session file, and the session it has saved as a new one. -/
structure SessionCall where
  sessionId : Text
  request : SessionRequest
  phase : Phase
  foundNone : Bool
  created : Option Session

/-- An agent in memory; `origin` is history. -/
structure LoadedAgent where
  agent : AgentRuntime
  origin : Session

/-- Who writes a session file. -/
inductive Writer
  | create (call : Nat)
  | load (call : Nat)
  | agent (sessionId : Text)
  deriving DecidableEq

def SessionCall.writer (call : SessionCall) (n : Nat) : Writer :=
  match call.request with
  | .create _ => .create n
  | .load => .load n

/-! ## The manager -/

/-- What a manager is configured with. -/
structure ManagerSettings extends AgentManagerConfig, AgentSettings where
  /-- The working directory. -/
  current : List Bytes

def ManagerSettings.fileOf (settings : ManagerSettings) (sessionId : Text) : Location :=
  Path.locate settings.current (settings.sessionPathFor sessionId)

/-- The session files, the map of sessions with its write lock, and the calls so far.
`writes` is history: who has written which file, the last write first. -/
structure Manager where
  files : Location → Option SessionFile
  sessions : Text → Option LoadedAgent
  lockedBy : Option Nat
  calls : Nat → Option SessionCall
  writes : List (Writer × Location)

/-- What a step of a call draws from its environment. -/
structure Draw where
  nowMs : Int
  salt : Block 32
  write : SessionWrite
  clientBuilt : Bool

inductive ManagerEvent
  | createSession (n : Nat) (sessionId : Option Text) (fresh : Uuid) (systemPrompt : Option Text)
  | getOrLoad (n : Nat) (sessionId : Text)
  | advance (n : Nat) (draw : Draw)
  /-- An agent works on its session. -/
  | work (sessionId : Text) (session : Session) (redactor : Redactor)
  /-- An agent persists its session. -/
  | persist (sessionId : Text) (write : SessionWrite)

namespace Manager

/-- `save_session` -/
def save (manager : Manager) (writer : Writer) (file : Location) (session : Session)
    (write : SessionWrite) : Manager :=
  match write.leaves session with
  | none => manager
  | some content => { manager with
      files := Function.update manager.files file (some content)
      writes := (writer, file) :: manager.writes }

def setCall (manager : Manager) (n : Nat) (call : SessionCall) : Manager :=
  { manager with calls := Function.update manager.calls n (some call) }

def unlock (manager : Manager) : Manager :=
  { manager with lockedBy := none }

def lock (manager : Manager) (n : Nat) : Manager :=
  { manager with lockedBy := some n }

def insert (manager : Manager) (sessionId : Text) (loaded : LoadedAgent) : Manager :=
  { manager with sessions := Function.update manager.sessions sessionId (some loaded) }

variable (settings : ManagerSettings)

/-- The next step of a call; with the lock taken, those that need it wait. -/
def advance (manager : Manager) (n : Nat) (call : SessionCall) (draw : Draw) : Option Manager :=
  let path := settings.sessionPathFor call.sessionId
  let file := settings.fileOf call.sessionId
  let writer := call.writer n
  match call.phase with
  | .checking =>
      if (manager.files file).isSome then
        some (manager.setCall n { call with phase := .returned (.error .alreadyExists) })
      else some (manager.setCall n { call with phase := .saving, foundNone := true })
  | .saving =>
      match call.request, draw.write with
      | .load, _ => none
      | .create systemPrompt, .written =>
          let session := Session.new systemPrompt draw.nowMs draw.salt
          some ((manager.save writer file session .written).setCall n
            { call with phase := .reading, created := some session })
      | .create systemPrompt, write =>
          let session := Session.new systemPrompt draw.nowMs draw.salt
          some ((manager.save writer file session write).setCall n
            { call with phase := .returned (.error .saveNewSession) })
  | .reading =>
      if manager.lockedBy.isSome then none
      else if (manager.sessions call.sessionId).isSome then
        some (manager.setCall n { call with phase := .returned (.ok ()) })
      else some (manager.setCall n { call with phase := .locking })
  | .locking =>
      if manager.lockedBy.isSome then none
      else if (manager.sessions call.sessionId).isSome then
        some (manager.setCall n { call with phase := .returned (.ok ()) })
      else some ((manager.setCall n { call with phase := .opening }).lock n)
  | .opening =>
      if (manager.files file).isSome then some (manager.setCall n { call with phase := .loading })
      else some (manager.setCall n { call with phase := .starting, foundNone := true })
  | .loading =>
      match (manager.files file).bind fun content => loadSession content draw.nowMs draw.salt with
      | none => some (manager.setCall n { call with
          phase := .returned (.error .loadSession) }).unlock
      | some session => some (manager.setCall n { call with phase := .building session })
  | .starting =>
      -- A session that cannot be saved is kept in memory all the same.
      let session := Session.new settings.defaultSystemPrompt draw.nowMs draw.salt
      some ((manager.save writer file session draw.write).setCall n
        { call with phase := .building session })
  | .building origin =>
      match Redactor.fromState origin.redaction with
      | none => some (manager.setCall n { call with
          phase := .returned (.error .initRedactor) }).unlock
      | some redactor =>
          let (session, redactor) := origin.mergeTerms redactor settings.extraTerms
          some ((manager.save writer file session draw.write).setCall n
            { call with phase := .merged origin session redactor })
  | .merged origin session redactor =>
      if draw.clientBuilt then
        let agent := AgentRuntime.new settings.toAgentSettings path session redactor
        some ((manager.save writer file agent.session draw.write).setCall n
          { call with phase := .inserting origin agent })
      else
        some (manager.setCall n { call with
          phase := .returned (.error .buildHttpClient) }).unlock
  | .inserting origin agent =>
      some ((manager.insert call.sessionId ⟨agent, origin⟩).setCall n
        { call with phase := .returned (.ok ()) }).unlock
  | .returned _ => none

/-- A new call, which returns at once when the id is not valid. -/
def start (manager : Manager) (n : Nat) (sessionId : Text) (request : SessionRequest)
    (phase : Phase) : Option Manager :=
  if (manager.calls n).isSome then none
  else
    match validateSessionId sessionId with
    | .error e => some (manager.setCall n
        ⟨sessionId, request, .returned (.error (.sessionId e)), false, none⟩)
    | .ok () => some (manager.setCall n ⟨sessionId, request, phase, false, none⟩)

def step (manager : Manager) : ManagerEvent → Option Manager
  | .createSession n sessionId fresh systemPrompt =>
      manager.start n (sessionId.getD (Uuid.toText fresh))
        (.create (systemPrompt.getD settings.defaultSystemPrompt)) .checking
  | .getOrLoad n sessionId => manager.start n sessionId .load .reading
  | .advance n draw => (manager.calls n).bind fun call => manager.advance settings n call draw
  | .work sessionId session redactor =>
      (manager.sessions sessionId).map fun loaded => manager.insert sessionId
        { loaded with agent := { loaded.agent with session := session, redactor := redactor } }
  | .persist sessionId write =>
      (manager.sessions sessionId).map fun loaded =>
        manager.save (.agent sessionId) (Path.locate settings.current loaded.agent.sessionPath)
          loaded.agent.session write

/-- Runs start without calls; agents that are put in memory before have the file of their
session. -/
def system : System Manager ManagerEvent where
  init manager := manager.lockedBy = none ∧ (∀ n, manager.calls n = none) ∧ manager.writes = [] ∧
    ∀ sessionId loaded, manager.sessions sessionId = some loaded → ValidSessionId sessionId ∧
      loaded.agent.sessionPath = settings.sessionPathFor sessionId
  step := Manager.step settings

end Manager

/-! ## Exclusive creation -/

/-- A `create_session` call that has returned its id. -/
def SessionCall.Creates (call : SessionCall) (systemPrompt : Text) : Prop :=
  call.request = .create systemPrompt ∧ call.phase = .returned (.ok ())

/-- Who has written a file, the last write first. -/
def Manager.writersOf (manager : Manager) (file : Location) : List Writer :=
  (manager.writes.filter fun write => write.2 = file).map Prod.fst

/-- Every session is created once at most, never over a file that another call or an agent
has written, and its agent is built from the session of that call. -/
structure Manager.Exclusive (settings : ManagerSettings) (manager : Manager) : Prop where
  once : ∀ left right leftCall rightCall leftPrompt rightPrompt,
    manager.calls left = some leftCall → manager.calls right = some rightCall →
    leftCall.Creates leftPrompt → rightCall.Creates rightPrompt →
    leftCall.sessionId = rightCall.sessionId → left = right
  intact : ∀ sessionId, ValidSessionId sessionId →
    (manager.writersOf (settings.fileOf sessionId)).Pairwise fun later earlier =>
      ∀ n, later = .create n → earlier = .create n
  built : ∀ n call systemPrompt, manager.calls n = some call → call.Creates systemPrompt →
    ∃ session loaded, call.created = some session ∧ session.systemPrompt = systemPrompt ∧
      manager.sessions call.sessionId = some loaded ∧ loaded.origin = session

/-- No other call that has found no session file is in progress when a call finds none, nor
is the agent of a session in memory that is to be created; and no call fails to build the agent
of a session while its creation is in progress. -/
def Manager.Undisturbed (settings : ManagerSettings) (manager : Manager) : ManagerEvent → Prop
  | .advance n draw => ∀ call, manager.calls n = some call →
      (call.phase = .checking → manager.files (settings.fileOf call.sessionId) = none →
        manager.sessions call.sessionId = none) ∧
      ∀ other otherCall, manager.calls other = some otherCall → other ≠ n →
        otherCall.sessionId = call.sessionId → otherCall.phase.isReturned = false →
        ((call.phase = .checking ∨ call.phase = .opening) →
          manager.files (settings.fileOf call.sessionId) = none → otherCall.foundNone = false) ∧
        (∀ origin session redactor, call.phase = .merged origin session redactor →
          draw.clientBuilt = false → otherCall.created = none)
  | _ => True

end ZkLlmGateway.Client
