import ZkLlmGateway.Gateway.Infer
import ZkLlmGateway.Interaction.Interpret

/-!
# The errors of an inference

An inference fails one of its own checks, or it fails with one of a few errors
of the verifier, the store and the provider, whatever these answer.
-/

namespace ZkLlmGateway.Gateway

open ZkLlmGateway.Encoding ZkLlmGateway.Common ZkLlmGateway.Interaction

/-- What the verifier, the store and the provider can make a request fail with. -/
def serviceErrors : List EncryptedError := [
  ⟨text "invalid_proof", text "invalid usage proof"⟩,
  ⟨text "double_spend", text "ticket nullifier already used"⟩,
  ⟨text "internal_error", text "internal error"⟩,
  ⟨text "upstream_network", text "upstream network error"⟩,
  ⟨text "upstream_read", text "upstream read error"⟩,
  ⟨text "upstream_parse", text "upstream parse error"⟩,
  ⟨text "upstream_error", text "upstream returned error"⟩]

theorem mapZkError_mem (requestId : Uuid) (error : ZkVerifyError) :
    mapZkError requestId error ∈ serviceErrors := by
  cases error with
  | invalidProof => exact List.mem_of_getElem? (i := 0) rfl
  | internal problem => exact List.mem_of_getElem? (i := 2) rfl

theorem mapReserveError_mem (requestId : Uuid) (error : ReserveError) :
    mapReserveError requestId error ∈ serviceErrors := by
  cases error with
  | alreadyUsed => exact List.mem_of_getElem? (i := 1) rfl
  | db => exact List.mem_of_getElem? (i := 2) rfl

theorem readProviderAnswer_mem {library : Library} {requestId : Uuid} {answer : HttpAnswer}
    {error : EncryptedError} (failed : readProviderAnswer library requestId answer = .error error) :
    error ∈ serviceErrors := by
  cases answer with
  | sendFailed =>
      cases failed
      exact List.mem_of_getElem? (i := 3) rfl
  | readFailed status =>
      cases failed
      exact List.mem_of_getElem? (i := 4) rfl
  | response status bytes =>
      rw [readProviderAnswer] at failed
      split at failed
      next =>
        split at failed
        next =>
          cases failed
          exact List.mem_of_getElem? (i := 5) rfl
        next => contradiction
      next =>
        cases failed
        exact List.mem_of_getElem? (i := 6) rfl

section Outcomes

variable {holds : EncryptedError → Prop}

/-- Every error an outcome may be has this property. -/
def OnError (holds : EncryptedError → Prop) :
    Except EncryptedError ProviderChatCompletionResult → Prop
  | .ok _ => True
  | .error error => holds error

theorem onError_answerReserved (services : ∀ error ∈ serviceErrors, holds error)
    (state : AppState) (req : InferenceRequest) (rkey pendingVal : Bytes) :
    (answerReserved state req rkey pendingVal).Returns (OnError holds) := by
  intro answer
  simp only [Program.bind_done]
  split
  next error failed =>
    exact Program.Returns.bind _ fun _ => services error (readProviderAnswer_mem failed)
  next response _ =>
    intro spentNow
    simp only [Program.bind_done]
    refine Program.Returns.bind _ fun marked => ?_
    rcases marked with problem | _
    · exact services _ (List.mem_of_getElem? (i := 2) rfl)
    · trivial

/-- **The rule for errors**: what holds of the errors of the request's own checks and of
the services holds of every error. -/
theorem onError_inferResult {env : Envelope} {req : InferenceRequest}
    (checks : ∀ error, checkRequest env req = .error error → holds error)
    (services : ∀ error ∈ serviceErrors, holds error) (state : AppState) :
    (inferResult state env req).Returns (OnError holds) := by
  unfold inferResult
  split
  next error failed => exact checks error failed
  next =>
    intro answer
    rcases answer with problem | verified
    · exact services _ (mapZkError_mem req.requestId problem)
    · intro now
      simp only [Program.bind_done]
      refine Program.Returns.bind _ fun reserved => ?_
      rcases reserved with problem | _
      · exact services _ (mapReserveError_mem req.requestId problem)
      · exact onError_answerReserved services state req _ _

end Outcomes

/-- The code with which a prompt is refused for its size. -/
def promptTooLarge : Text :=
  text "prompt_too_large"

/-- A prompt that fits is not refused for its size. -/
theorem code_ne_promptTooLarge {req : InferenceRequest}
    (fits : approxPromptBytes req.messages ≤ req.tokenClass.maxPromptBytes) (state : AppState)
    (env : Envelope) :
    (inferResult state env req).Returns (OnError fun error => error.code ≠ promptTooLarge) := by
  have mismatch : text "token_class_mismatch" ≠ promptTooLarge := by decide
  have unsupported : text "stream_unsupported" ≠ promptTooLarge := by decide
  refine onError_inferResult (fun error failed => ?_) (by decide) state
  unfold checkRequest at failed
  rw [if_neg (Nat.not_lt.mpr fits)] at failed
  split at failed
  next =>
    cases failed
    exact mismatch
  next =>
    split at failed
    next =>
      cases failed
      exact mismatch
    next =>
      split at failed
      next =>
        cases failed
        exact unsupported
      next => contradiction

end ZkLlmGateway.Gateway
