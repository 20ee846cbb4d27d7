import ZkLlmGateway.Gateway.Actum
import ZkLlmGateway.Gateway.Outcome
import ZkLlmGateway.Gateway.World
import ZkLlmGateway.Interaction.Perform

/-!
# Faults of the store

A swap is stored at once, and flushed by a call of its own that may fail.  A
request whose flush fails is answered with an error although its value is
stored, and one that cannot mark its ticket leaves the reservation: only the
provider's failures are followed by a release.
-/

namespace ZkLlmGateway.Gateway

open ZkLlmGateway.Encoding ZkLlmGateway.Common ZkLlmGateway.Interaction
open ZkLlmGateway.Interaction.Program (Performs performs_call_iff performs_done_iff
  performs_bind_iff)

/-! ## Servings -/

/-- How a call is served: at which time, and with which reply. -/
structure Choice where
  clock : UInt64
  reply : Reply

abbrev Serving := Program.Serving Call Choice

/-- The store, the clock and the outside world serve the calls of one request. -/
def serveOne (id : Nat) (db : Db) (query : Call) (choice : Choice) : Option (Answer query × Db) :=
  serveCall db choice.clock id query choice.reply

/-- The request `id` is alone with the store. -/
abbrev Alone {α : Type} (id : Nat) (program : Handler α) (db : Db) (servings : List Serving)
    (value : α) (final : Db) : Prop :=
  Performs (serveOne id) program db servings value final

/-- The store reports an error. -/
def isFault (serving : Serving) : Bool :=
  match serving.choice.reply with
  | .fails | .failsAfter => true
  | _ => false

/-- An error that comes when the value is stored already: a flush fails, or a swap reports an error
after it was applied. -/
def isLate (serving : Serving) : Bool :=
  match serving.query, serving.choice.reply with
  | .flush, .fails => true
  | _, .failsAfter => true
  | _, _ => false

instance (query : Call) : Decidable (IsPost query) := by
  cases query <;> unfold IsPost <;> infer_instance

/-- The store reports an error when the provider has been called. -/
def faultsAfterPost (servings : List Serving) : Bool :=
  (servings.dropWhile fun serving => ¬IsPost serving.query).any isFault

/-- Nothing in the store was written by the request `id`. -/
def NoTrace (id : Nat) (db : Db) : Prop :=
  ∀ key stored, db.store key = some stored → stored.writer ≠ some id

/-! ## The nullifier operations -/

section Operations

variable {id : Nat} {db final : Db} {servings : List Serving} {rkey pendingVal spentVal : Bytes}
  {ttlMs : UInt64} {result : Except ReserveError Unit}

theorem valueAt_write (db : Db) (id : Nat) (key value : Bytes) :
    (db.write id key (some value)).valueAt key = some value := by
  simp [Db.valueAt, Db.write]

@[simp]
theorem valueAt_flushed (db : Db) (key : Bytes) : db.flushed.valueAt key = db.valueAt key :=
  rfl

/-- What an operation that writes one value does. -/
inductive Attempt (id : Nat) (key value : Bytes) (db : Db) (servings : List Serving) :
    Except ReserveError Unit → Db → Prop
  | refused (error : ReserveError) : servings.any isLate = false →
      Attempt id key value db servings (.error error) db
  | late : servings.any isLate = true →
      Attempt id key value db servings (.error .db) (db.write id key (some value))
  | written : Attempt id key value db servings (.ok ()) (db.write id key (some value)).flushed

/-- What both operations do after a swap that took place. -/
def flushWritten : Handler (Except ReserveError Unit) := do
  match ← flush with
  | .error _ => return .error .db
  | .ok () => return .ok ()

theorem attempt_of_flush {value : Bytes} (first : List Serving)
    (alone : Alone id flushWritten (db.write id rkey (some value)) servings result final) :
    Attempt id rkey value db (first ++ servings) result final := by
  obtain ⟨⟨clock, reply⟩, flushed, next, rest, served, rfl, afterFlush⟩ :=
    performs_call_iff.mp alone
  rcases serveCall_flush.mp served with ⟨_, rfl, rfl⟩ | ⟨isReply, rfl, rfl⟩
  · obtain ⟨rfl, rfl, rfl⟩ := performs_done_iff.mp afterFlush
    exact .written
  · obtain ⟨rfl, rfl, rfl⟩ := performs_done_iff.mp afterFlush
    cases (isReply : reply = .fails)
    apply Attempt.late
    rw [List.any_append, Bool.or_eq_true]
    exact .inr rfl

/-- A swap whose success is flushed, and whose failure is a refusal. -/
theorem attempt_of_swap {value : Bytes} {old : Option Bytes} {refusal : ReserveError}
    {resume : Except StoreError Bool → Handler (Except ReserveError Unit)} (first : List Serving)
    (unharmed : first.any isLate = false)
    (onError : ∀ problem, resume (.error problem) = .done (.error .db))
    (onFalse : resume (.ok false) = .done (.error refusal))
    (onTrue : resume (.ok true) = flushWritten)
    (alone : Alone id (.call (.compareAndSwap rkey old (some value)) resume) db servings result
      final) :
    Attempt id rkey value db (first ++ servings) result final := by
  obtain ⟨⟨clock, reply⟩, swapped, next, rest, served, rfl, afterSwap⟩ :=
    performs_call_iff.mp alone
  rcases serveCall_compareAndSwap.mp served with
    ⟨_, _, rfl, rfl⟩ | ⟨isReply, _, rfl, rfl⟩ | ⟨isReply, rfl, rfl⟩ | ⟨isReply, _, rfl, rfl⟩
  · rw [onTrue] at afterSwap
    rw [List.append_cons]
    exact attempt_of_flush _ afterSwap
  · rw [onFalse] at afterSwap
    obtain ⟨rfl, rfl, rfl⟩ := performs_done_iff.mp afterSwap
    cases (isReply : reply = .works)
    apply Attempt.refused
    rw [List.any_append, unharmed]
    rfl
  · rw [onError] at afterSwap
    obtain ⟨rfl, rfl, rfl⟩ := performs_done_iff.mp afterSwap
    cases (isReply : reply = .fails)
    apply Attempt.refused
    rw [List.any_append, unharmed]
    rfl
  · rw [onError] at afterSwap
    obtain ⟨rfl, rfl, rfl⟩ := performs_done_iff.mp afterSwap
    cases (isReply : reply = .failsAfter)
    apply Attempt.late
    rw [List.any_append, Bool.or_eq_true]
    exact .inr rfl

/-- Every way a mark ends. -/
theorem attempt_of_mark
    (alone : Alone id (markNullifierSpent rkey pendingVal spentVal) db servings result final) :
    Attempt id rkey spentVal db servings result final :=
  attempt_of_swap [] rfl (fun _ => rfl) rfl rfl alone

/-- Every way a reservation ends. -/
theorem attempt_of_reserve
    (alone : Alone id (reserveNullifier rkey pendingVal ttlMs) db servings result final) :
    Attempt id rkey pendingVal db servings result final := by
  obtain ⟨⟨clock, reply⟩, swapped, next, rest, served, rfl, afterSwap⟩ :=
    performs_call_iff.mp alone
  rcases serveCall_compareAndSwap.mp served with
    ⟨_, _, rfl, rfl⟩ | ⟨isReply, _, rfl, rfl⟩ | ⟨isReply, rfl, rfl⟩ | ⟨isReply, _, rfl, rfl⟩
  · exact attempt_of_flush [_] afterSwap
  · cases (isReply : reply = .works)
    obtain ⟨⟨later, reply⟩, found, next, rest, served, rfl, afterGet⟩ :=
      performs_call_iff.mp afterSwap
    obtain ⟨rfl, ⟨isReply, rfl⟩ | ⟨isReply, rfl⟩⟩ := serveCall_get.mp served
    · cases (isReply : reply = .works)
      cases stored : next.valueAt rkey with
      | none =>
          rw [stored] at afterGet
          obtain ⟨rfl, rfl, rfl⟩ := performs_done_iff.mp afterGet
          exact .refused .alreadyUsed rfl
      | some val =>
          rw [stored] at afterGet
          simp only [Program.bind_done] at afterGet
          split at afterGet
          next =>
            obtain ⟨rfl, rfl, rfl⟩ := performs_done_iff.mp afterGet
            exact .refused .alreadyUsed rfl
          next status ts _ =>
            split at afterGet
            next =>
              obtain ⟨⟨now, reply⟩, time, next, rest, served, rfl, afterNow⟩ :=
                performs_call_iff.mp afterGet
              obtain ⟨isReply, _, rfl⟩ := serveCall_now.mp served
              cases (isReply : reply = .works)
              simp only [Program.bind_done] at afterNow
              split at afterNow
              next => exact attempt_of_swap [_, _, _] rfl (fun _ => rfl) rfl rfl afterNow
              next =>
                obtain ⟨rfl, rfl, rfl⟩ := performs_done_iff.mp afterNow
                exact .refused .alreadyUsed rfl
            next =>
              obtain ⟨rfl, rfl, rfl⟩ := performs_done_iff.mp afterGet
              exact .refused .alreadyUsed rfl
    · cases (isReply : reply = .fails)
      obtain ⟨rfl, rfl, rfl⟩ := performs_done_iff.mp afterGet
      exact .refused .db rfl
  · obtain ⟨rfl, rfl, rfl⟩ := performs_done_iff.mp afterSwap
    cases (isReply : reply = .fails)
    exact .refused .db rfl
  · obtain ⟨rfl, rfl, rfl⟩ := performs_done_iff.mp afterSwap
    cases (isReply : reply = .failsAfter)
    exact .late rfl

/-- A failed operation leaves the value of its key, unless an error came late; and then only when
the value was there already. -/
theorem Attempt.valueAt_eq_iff {value : Bytes} {error : ReserveError}
    (attempt : Attempt id rkey value db servings (.error error) final) :
    final.valueAt rkey = db.valueAt rkey ↔
      servings.any isLate = false ∨ db.valueAt rkey = some value := by
  cases attempt with
  | refused _ unharmed => exact ⟨fun _ => .inl unharmed, fun _ => rfl⟩
  | late isLate =>
      rw [valueAt_write, isLate, eq_comm]
      simp

/-- A mark that finds its reservation fails by a fault of the store. -/
theorem fault_of_mark {error : ReserveError}
    (alone :
      Alone id (markNullifierSpent rkey pendingVal spentVal) db servings (.error error) final)
    (stored : db.valueAt rkey = some pendingVal) : servings.any isFault = true := by
  obtain ⟨⟨clock, reply⟩, swapped, next, rest, served, rfl, afterSwap⟩ :=
    performs_call_iff.mp alone
  rw [List.any_cons, Bool.or_eq_true]
  rcases serveCall_compareAndSwap.mp served with
    ⟨_, _, rfl, rfl⟩ | ⟨_, other, _⟩ | ⟨isReply, _⟩ | ⟨isReply, _⟩
  · obtain ⟨⟨later, reply⟩, flushed, next, rest, served, rfl, afterFlush⟩ :=
      performs_call_iff.mp afterSwap
    rcases serveCall_flush.mp served with ⟨_, rfl, _⟩ | ⟨isReply, _⟩
    · exact absurd (performs_done_iff.mp afterFlush).2.1 (by simp)
    · cases (isReply : reply = .fails)
      exact .inr rfl
  · exact absurd stored other
  · cases (isReply : reply = .fails)
    exact .inl rfl
  · cases (isReply : reply = .failsAfter)
    exact .inl rfl

end Operations

/-! ## What a request leaves -/

section Requests

variable {id : Nat} {db final : Db} {servings : List Serving} {rkey pendingVal spentVal : Bytes}

theorem not_noTrace {value : Bytes} (stored : db.store rkey = some ⟨value, some id⟩) :
    ¬NoTrace id db :=
  fun noTrace => noTrace rkey _ stored rfl

theorem store_write (db : Db) (id : Nat) (key value : Bytes) :
    (db.write id key (some value)).store key = some ⟨value, some id⟩ := by
  simp [Db.write]

/-- A request leaves no trace of a failed reservation exactly when no error came late. -/
theorem Attempt.noTrace_iff {value : Bytes} {error : ReserveError}
    (attempt : Attempt id rkey value db servings (.error error) final) (fresh : NoTrace id db) :
    NoTrace id final ↔ servings.any isLate = false := by
  cases attempt with
  | refused _ unharmed => exact ⟨fun _ => unharmed, fun _ => fresh⟩
  | late isLate =>
      rw [isLate]
      exact ⟨fun noTrace => absurd noTrace (not_noTrace (store_write db id rkey value)),
        fun impossible => absurd impossible (by decide)⟩

/-- A failed mark leaves the reservation, or the mark. -/
theorem Attempt.trace {value held : Bytes} {error : ReserveError}
    (attempt : Attempt id rkey value db servings (.error error) final)
    (holds : db.store rkey = some ⟨held, some id⟩) : ¬NoTrace id final := by
  cases attempt with
  | refused => exact not_noTrace holds
  | late => exact not_noTrace (store_write db id rkey value)

theorem serveCall_verify {clock : UInt64} {ticket : ZkTicket} {context : VerificationContext}
    {reply : Reply} {answer : Except ZkVerifyError VerifiedTicket} {next : Db}
    (served : serveCall db clock id (.verify ticket context) reply = some (answer, next)) :
    reply = .verified answer ∧ next = db := by
  cases reply <;> simp_all [serveCall]

theorem serveCall_post {clock : UInt64} {url : Text} {bearer : Option Text}
    {body : ProviderChatCompletionRequest} {reply : Reply} {answer : HttpAnswer} {next : Db}
    (served : serveCall db clock id (.post url bearer body) reply = some (answer, next)) :
    reply = .replied answer ∧ next = db := by
  cases reply <;> simp_all [serveCall]

theorem faultsAfterPost_append {first rest : List Serving}
    (noPost : ∀ serving ∈ first, ¬IsPost serving.query) :
    faultsAfterPost (first ++ rest) = faultsAfterPost rest := by
  rw [faultsAfterPost, faultsAfterPost, List.dropWhile_append_of_pos]
  intro serving member
  exact decide_eq_true (noPost serving member)

theorem faultsAfterPost_of_noPost (noPost : ∀ serving ∈ servings, ¬IsPost serving.query) :
    faultsAfterPost servings = false := by
  have none : faultsAfterPost (servings ++ []) = faultsAfterPost [] := faultsAfterPost_append noPost
  rwa [List.append_nil] at none

/-- A reservation does not call the provider. -/
theorem noPost_of_reserve {ttlMs : UInt64} {result : Except ReserveError Unit}
    (alone : Alone id (reserveNullifier rkey pendingVal ttlMs) db servings result final) :
    ∀ serving ∈ servings, ¬IsPost serving.query := by
  obtain ⟨events, runs, same⟩ := alone.exists_runs
  intro serving member
  have isQuery := List.mem_map_of_mem (f := Program.Serving.query) member
  rw [← same] at isQuery
  obtain ⟨event, inEvents, isSame⟩ := List.mem_map.mp isQuery
  rw [← isSame]
  exact (only_reserve rkey pendingVal ttlMs).runs runs event inEvents

def internalError : Text :=
  text "internal_error"

/-- The codes of the errors that are the client's or the provider's. -/
def foreignCodes : List Text := [
  text "token_class_mismatch", text "prompt_too_large", text "stream_unsupported",
  text "upstream_network", text "upstream_read", text "upstream_parse", text "upstream_error"]

theorem internalError_not_mem : internalError ∉ foreignCodes := by
  decide

theorem checkRequest_mem {env : Envelope} {req : InferenceRequest} {error : EncryptedError}
    (failed : checkRequest env req = .error error) : error.code ∈ foreignCodes := by
  unfold checkRequest at failed
  split at failed
  · cases failed
    exact .head _
  split at failed
  · cases failed
    exact .head _
  split at failed
  · cases failed
    exact .tail _ (.head _)
  split at failed
  · cases failed
    exact .tail _ (.tail _ (.head _))
  · contradiction

theorem code_readProviderAnswer_mem {library : Library} {requestId : Uuid} {answer : HttpAnswer}
    {error : EncryptedError} (failed : readProviderAnswer library requestId answer = .error error) :
    error.code ∈ foreignCodes := by
  have upstream : ∀ code ∈ foreignCodes.drop 3, code ∈ foreignCodes := fun code member =>
    List.mem_of_mem_drop member
  apply upstream
  cases answer with
  | sendFailed =>
      cases failed
      exact .head _
  | readFailed status =>
      cases failed
      exact .tail _ (.head _)
  | response status bytes =>
      rw [readProviderAnswer] at failed
      split at failed
      next =>
        split at failed
        next =>
          cases failed
          exact .tail _ (.tail _ (.head _))
        next => contradiction
      next =>
        cases failed
        exact .tail _ (.tail _ (.tail _ (.head _)))

/-- What is done with a reserved ticket: an internal error comes from the mark, and leaves the
reservation or the mark. -/
theorem trace_of_answerReserved {state : AppState} {req : InferenceRequest}
    {error : EncryptedError} {held : Bytes}
    (alone : Alone id (answerReserved state req rkey held) db servings (.error error) final)
    (holds : db.store rkey = some ⟨held, some id⟩) (isInternal : error.code = internalError) :
    ¬NoTrace id final ∧ faultsAfterPost servings = true := by
  obtain ⟨⟨clock, reply⟩, answer, next, rest, served, rfl, afterPost⟩ :=
    performs_call_iff.mp alone
  obtain ⟨isReply, rfl⟩ := serveCall_post served
  cases (isReply : reply = .replied answer)
  simp only [Program.bind_done] at afterPost
  split at afterPost
  next problem failed =>
    -- The provider failed: the code is the provider's.
    obtain ⟨first, second, value, middle, rfl, _, done⟩ := performs_bind_iff.mp afterPost
    obtain ⟨_, same, _⟩ := performs_done_iff.mp done
    cases same
    exact absurd (isInternal ▸ code_readProviderAnswer_mem failed) internalError_not_mem
  next response _ =>
    obtain ⟨⟨now, reply⟩, time, next, rest, served, rfl, afterNow⟩ :=
      performs_call_iff.mp afterPost
    obtain ⟨isReply, _, rfl⟩ := serveCall_now.mp served
    cases (isReply : reply = .works)
    simp only [Program.bind_done] at afterNow
    obtain ⟨first, second, marked, middle, rfl, mark, done⟩ := performs_bind_iff.mp afterNow
    cases marked with
    | error problem =>
        obtain ⟨rfl, _, rfl⟩ := performs_done_iff.mp done
        constructor
        · exact (attempt_of_mark mark).trace holds
        · have stored : next.valueAt rkey = some held := by
            rw [Db.valueAt, holds]
            rfl
          change List.any (_ :: _ :: (first ++ [])) isFault = true
          rw [List.append_nil, List.any_cons, List.any_cons, fault_of_mark mark stored,
            Bool.or_true, Bool.or_true]
    | ok value =>
        exact absurd (performs_done_iff.mp done).2.1 (by simp)

/-- **A request that is answered with an internal error leaves no trace** exactly when no error of
the store came late, and none after the provider was called. -/
theorem noTrace_of_inferResult {state : AppState} {env : Envelope} {req : InferenceRequest}
    {error : EncryptedError}
    (alone : Alone id (inferResult state env req) db servings (.error error) final)
    (fresh : NoTrace id db) (isInternal : error.code = internalError) :
    NoTrace id final ↔ servings.any isLate = false ∧ faultsAfterPost servings = false := by
  unfold inferResult at alone
  split at alone
  next problem failed =>
    obtain ⟨_, same, _⟩ := performs_done_iff.mp alone
    cases same
    exact absurd (isInternal ▸ checkRequest_mem failed) internalError_not_mem
  next =>
    obtain ⟨⟨clock, reply⟩, answer, next, rest, served, rfl, afterVerify⟩ :=
      performs_call_iff.mp alone
    obtain ⟨isReply, rfl⟩ := serveCall_verify served
    cases (isReply : reply = .verified answer)
    cases answer with
    | error problem =>
        obtain ⟨rfl, _, rfl⟩ := performs_done_iff.mp afterVerify
        exact ⟨fun _ => ⟨rfl, rfl⟩, fun _ => fresh⟩
    | ok verified =>
        obtain ⟨⟨now, reply⟩, time, next, rest, served, rfl, afterNow⟩ :=
          performs_call_iff.mp afterVerify
        obtain ⟨isReply, _, rfl⟩ := serveCall_now.mp served
        cases (isReply : reply = .works)
        simp only [Program.bind_done] at afterNow
        obtain ⟨first, second, reserved, middle, rfl, reserve, later⟩ :=
          performs_bind_iff.mp afterNow
        cases reserved with
        | error problem =>
            obtain ⟨rfl, _, rfl⟩ := performs_done_iff.mp later
            rw [List.append_nil, (attempt_of_reserve reserve).noTrace_iff fresh]
            have noFault : faultsAfterPost first = false :=
              faultsAfterPost_of_noPost (noPost_of_reserve reserve)
            exact ⟨fun unharmed => ⟨unharmed, noFault⟩, And.left⟩
        | ok value =>
            have holds : middle.store (ticketKey state.library req.ticket verified) =
                some ⟨encodeNullifierValue pendingStatus time, some id⟩ := by
              cases attempt_of_reserve reserve with
              | written => exact store_write next id _ _
            obtain ⟨trace, fault⟩ := trace_of_answerReserved later holds isInternal
            constructor
            · exact fun noTrace => absurd noTrace trace
            · rintro ⟨_, noFault⟩
              have after : faultsAfterPost (first ++ second) = false := noFault
              rw [faultsAfterPost_append (noPost_of_reserve reserve), fault] at after
              contradiction

end Requests

/-- **Failed operations change nothing**, and internal errors leave nothing behind, exactly when no
error of the store comes after a value was stored: a failed reservation or mark leaves the value
of its key when no flush fails and no swap is applied that reports an error, or when the value
was there already; and a request that is answered with an internal error leaves no value of its
own when besides no error comes after the provider was called. -/
theorem failed_changes_nothing_iff (id : Nat) (db final : Db) (servings : List Serving) :
    (∀ (rkey pendingVal : Bytes) (ttlMs : UInt64) (error : ReserveError),
      Alone id (reserveNullifier rkey pendingVal ttlMs) db servings (.error error) final →
        (final.valueAt rkey = db.valueAt rkey ↔
          servings.any isLate = false ∨ db.valueAt rkey = some pendingVal)) ∧
    (∀ (rkey pendingVal spentVal : Bytes) (error : ReserveError),
      Alone id (markNullifierSpent rkey pendingVal spentVal) db servings (.error error) final →
        (final.valueAt rkey = db.valueAt rkey ↔
          servings.any isLate = false ∨ db.valueAt rkey = some spentVal)) ∧
    ∀ (state : AppState) (env : Envelope) (req : InferenceRequest) (error : EncryptedError),
      Alone id (inferResult state env req) db servings (.error error) final → NoTrace id db →
        error.code = internalError →
          (NoTrace id final ↔ servings.any isLate = false ∧ faultsAfterPost servings = false) := by
  refine ⟨?_, ?_, ?_⟩
  · intro rkey pendingVal ttlMs error alone
    exact (attempt_of_reserve alone).valueAt_eq_iff
  · intro rkey pendingVal spentVal error alone
    exact (attempt_of_mark alone).valueAt_eq_iff
  · intro state env req error alone fresh isInternal
    exact noTrace_of_inferResult alone fresh isInternal

/-- The store after a reservation whose flush failed. -/
def lateDb : Db :=
  emptyWorld.db.write 0 [7] (some (pendingValue 100))

def lateFlush : List Serving := [
  ⟨.compareAndSwap [7] none (some (pendingValue 100)), ⟨100, .works⟩⟩,
  ⟨.flush, ⟨100, .fails⟩⟩]

theorem alone_lateFlush : Alone 0 (reserveNullifier [7] (pendingValue 100) 10) emptyWorld.db
    lateFlush (.error .db) lateDb :=
  .call rfl (.call rfl (.done _ _))

/-- A verifier that fails leaves nothing, and a flush that fails leaves a reservation. -/
theorem failed_changes_nothing_iff_late :
    NoTrace 0 emptyWorld.db ∧ lateDb.valueAt [7] ≠ emptyWorld.db.valueAt [7] := by
  constructor
  · have alone : Alone 0 (inferResult plainState plainEnvelope plainRequest) emptyWorld.db
        [⟨verifyCall plainState plainRequest, ⟨100, .verified (.error (.internal []))⟩⟩]
        (.error (.internal plainRequest.requestId (text "verifier error"))) emptyWorld.db :=
      .call rfl (.done _ _)
    apply ((failed_changes_nothing_iff 0 emptyWorld.db emptyWorld.db _).2.2 plainState
      plainEnvelope plainRequest _ alone
      (fun key stored found => absurd found (by simp [emptyWorld]))
      rfl).mpr
    exact ⟨rfl, rfl⟩
  · intro same
    have unharmed := ((failed_changes_nothing_iff 0 emptyWorld.db lateDb lateFlush).1 [7]
      (pendingValue 100) 10 .db alone_lateFlush).mp same
    exact absurd unharmed (by decide)

/-- A reservation that was answered with an error is there. -/
theorem not_failed_changes_nothing : ¬∀ (id : Nat) (db final : Db) (servings : List Serving)
    (rkey pendingVal : Bytes) (ttlMs : UInt64) (error : ReserveError),
    Alone id (reserveNullifier rkey pendingVal ttlMs) db servings (.error error) final →
      final.valueAt rkey = db.valueAt rkey := by
  intro claim
  have same := claim 0 emptyWorld.db lateDb lateFlush [7] (pendingValue 100) 10 .db alone_lateFlush
  rw [lateDb, valueAt_write] at same
  contradiction

end ZkLlmGateway.Gateway
