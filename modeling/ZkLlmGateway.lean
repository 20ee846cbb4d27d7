import ZkLlmGateway.Transition.System
import ZkLlmGateway.Transition.Lease
import ZkLlmGateway.Transition.Loop
import ZkLlmGateway.Transition.Mutex
import ZkLlmGateway.Transition.Channel
import ZkLlmGateway.Transition.KeyedLog
import ZkLlmGateway.Transition.Saving
import ZkLlmGateway.Interaction.Program
import ZkLlmGateway.Interaction.Interpret
import ZkLlmGateway.Interaction.Perform
import ZkLlmGateway.Matching.Pattern
import ZkLlmGateway.Matching.Scan
import ZkLlmGateway.Matching.Growth
import ZkLlmGateway.Matching.Spans
import ZkLlmGateway.Matching.Masked
import ZkLlmGateway.Matching.Runs
import ZkLlmGateway.Matching.Swept
import ZkLlmGateway.Matching.Remains
import ZkLlmGateway.Matching.Blanks
import ZkLlmGateway.Matching.Stable
import ZkLlmGateway.Ranking.Tally
import ZkLlmGateway.Ranking.Inverted
import ZkLlmGateway.Ranking.Top
import ZkLlmGateway.Ranking.Oldest
import ZkLlmGateway.Encoding.Bytes
import ZkLlmGateway.Encoding.Text
import ZkLlmGateway.Encoding.Path
import ZkLlmGateway.Encoding.Trim
import ZkLlmGateway.Encoding.Base64
import ZkLlmGateway.Encoding.Json
import ZkLlmGateway.Encoding.Canonical
import ZkLlmGateway.Encoding.Parse
import ZkLlmGateway.Common.Token
import ZkLlmGateway.Common.Types
import ZkLlmGateway.Common.Envelope
import ZkLlmGateway.Common.Sealing
import ZkLlmGateway.Common.Relay
import ZkLlmGateway.Common.Decoding
import ZkLlmGateway.Common.Wire
import ZkLlmGateway.Common.Commitment
import ZkLlmGateway.Gateway.Environment
import ZkLlmGateway.Gateway.Nullifier
import ZkLlmGateway.Gateway.Infer
import ZkLlmGateway.Gateway.Endpoint
import ZkLlmGateway.Gateway.Stage
import ZkLlmGateway.Gateway.World
import ZkLlmGateway.Gateway.Ledger
import ZkLlmGateway.Gateway.Simulation
import ZkLlmGateway.Gateway.Payment
import ZkLlmGateway.Gateway.Refusal
import ZkLlmGateway.Gateway.Reservation
import ZkLlmGateway.Gateway.Delivery
import ZkLlmGateway.Gateway.Redeeming
import ZkLlmGateway.Gateway.Upstream
import ZkLlmGateway.Gateway.Actum
import ZkLlmGateway.Gateway.Startup
import ZkLlmGateway.Gateway.Router
import ZkLlmGateway.Gateway.Outcome
import ZkLlmGateway.Gateway.Faults
import ZkLlmGateway.Gateway.Observation
import ZkLlmGateway.Relay.Forward
import ZkLlmGateway.Client.Redaction
import ZkLlmGateway.Client.Passes
import ZkLlmGateway.Client.Mapping
import ZkLlmGateway.Client.Recording
import ZkLlmGateway.Client.Rehydration
import ZkLlmGateway.Client.Coverage
import ZkLlmGateway.Client.Hiding
import ZkLlmGateway.Client.Budget
import ZkLlmGateway.Client.Tickets
import ZkLlmGateway.Client.Wallet
import ZkLlmGateway.Client.Sessions
import ZkLlmGateway.Client.Agent
import ZkLlmGateway.Client.Fitting
import ZkLlmGateway.Client.Survivors
import ZkLlmGateway.Client.Prompt
import ZkLlmGateway.Client.Agreement
import ZkLlmGateway.Client.Padding
import ZkLlmGateway.Client.Snippets
import ZkLlmGateway.Client.Terms
import ZkLlmGateway.Client.Redacted
import ZkLlmGateway.Client.Idempotence
import ZkLlmGateway.Client.Summary
import ZkLlmGateway.Client.Tokens
import ZkLlmGateway.Client.MemoryStore
import ZkLlmGateway.Client.Search
import ZkLlmGateway.Client.Retrieval
import ZkLlmGateway.Client.Sending
import ZkLlmGateway.Client.Recall
import ZkLlmGateway.Client.SessionJson
import ZkLlmGateway.Client.SessionFile
import ZkLlmGateway.Client.Manager
import ZkLlmGateway.Client.Creation
import ZkLlmGateway.Client.Instances
import ZkLlmGateway.Client.Persisting
import ZkLlmGateway.Client.Restarting
import ZkLlmGateway.Client.Resending
import ZkLlmGateway.Client.Operations
import ZkLlmGateway.Client.Api
import ZkLlmGateway.Client.Conversation
import ZkLlmGateway.Client.Repl
import ZkLlmGateway.Client.Streaming
import ZkLlmGateway.Client.Streamed
import ZkLlmGateway.Client.Listing
import ZkLlmGateway.Client.Replies
import ZkLlmGateway.Client.Exchange
import ZkLlmGateway.Client.Traffic
