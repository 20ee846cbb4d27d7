import ZkLlmGateway.Client.Redaction
import ZkLlmGateway.Common.Types
import ZkLlmGateway.Encoding.Path

/-!
# Sessions and agents

A session is what is kept of a conversation.  An agent is a session in memory,
with its redactor and what its requests are sent with.  The retrieval index and
the local summarizer are left out.
-/

namespace ZkLlmGateway.Client

open ZkLlmGateway.Encoding ZkLlmGateway.Common

structure MemoryItem where
  id : Uuid
  createdAtMs : Int
  text : Text
  tags : List Text

structure Session where
  version : Nat
  createdAtMs : Int
  systemPrompt : Text
  /-- Full conversation history. -/
  messages : List ChatMessage
  memory : List MemoryItem
  /-- Rolling summary. -/
  summary : Text
  redaction : RedactionState

/-- A new session; the clock and the salt are what it draws. -/
def Session.new (systemPrompt : Text) (nowMs : Int) (salt : Block 32) : Session where
  version := 1
  createdAtMs := nowMs
  systemPrompt := systemPrompt
  messages := []
  memory := []
  summary := []
  redaction := .new (Base64.encode salt.val)

/-- What an agent sends its requests with, and how it redacts them. -/
structure AgentSettings where
  endpointUrl : Text
  gatewayPublicBytes : Block 32
  model : Text
  tokenClass : TokenClass
  redactMode : RedactMode
  extraTerms : List Text

structure AgentRuntime extends AgentSettings where
  sessionPath : Path
  session : Session
  redactor : Redactor

/-- Merge the session's own terms and others into the redactor, and keep its state. -/
def Session.mergeTerms (session : Session) (redactor : Redactor) (extraTerms : List Text) :
    Session × Redactor :=
  let redactor :=
    (session.redaction.customTerms ++ extraTerms).foldl Redactor.addCustomTerm redactor
  ({ session with redaction := redactor.state }, redactor)

/-- `AgentRuntime::new`, when the HTTP client can be built; it then saves the session. -/
def AgentRuntime.new (settings : AgentSettings) (sessionPath : Path) (session : Session)
    (redactor : Redactor) : AgentRuntime :=
  let (session, redactor) := session.mergeTerms redactor settings.extraTerms
  { settings with
    sessionPath := sessionPath
    session := session
    redactor := redactor }

end ZkLlmGateway.Client
