import ZkLlmGateway.Encoding.Path

/-!
# Session files

Every session is kept in a file of its own.  The path comes from the session
id, except that the default session may have a path that is set apart.
-/

namespace ZkLlmGateway.Client

open ZkLlmGateway.Encoding

/-- What a manager is configured with, as far as its session files go. -/
structure AgentManagerConfig where
  sessionsDir : Path
  defaultSystemPrompt : Text
  defaultSessionId : Text
  defaultSessionPathOverride : Option Path

inductive SessionIdError
  | invalidLength
  | invalidCharacters
  deriving DecidableEq

def SessionIdError.message : SessionIdError → Text
  | invalidLength => text "invalid session_id length"
  | invalidCharacters => text "invalid session_id characters (allowed: [A-Za-z0-9_-])"

def isSessionIdChar (char : Char) : Bool :=
  char.isAlphanum || char = '-' || char = '_'

/-- Allow only a conservative set to avoid path traversal. -/
def validateSessionId (sessionId : Text) : Except SessionIdError Unit :=
  if sessionId = [] ∨ byteLen sessionId > 64 then .error .invalidLength
  else if !sessionId.all isSessionIdChar then .error .invalidCharacters
  else .ok ()

def ValidSessionId (sessionId : Text) : Prop :=
  validateSessionId sessionId = .ok ()

instance (sessionId : Text) : Decidable (ValidSessionId sessionId) :=
  match valid : validateSessionId sessionId with
  | .ok () => .isTrue valid
  | .error _ => .isFalse fun ok => by
      rw [ValidSessionId, valid] at ok
      contradiction

def sessionFileName (sessionId : Text) : Bytes :=
  utf8 (sessionId ++ text ".session.json")

namespace AgentManagerConfig

def patternPath (config : AgentManagerConfig) (sessionId : Text) : Path :=
  Path.join config.sessionsDir (sessionFileName sessionId)

def sessionPathFor (config : AgentManagerConfig) (sessionId : Text) : Path :=
  if sessionId = config.defaultSessionId then
    match config.defaultSessionPathOverride with
    | some path => path
    | none => config.patternPath sessionId
  else config.patternPath sessionId

/-- The session whose path does not come from its id. -/
def Overridden (config : AgentManagerConfig) (sessionId : Text) : Prop :=
  sessionId = config.defaultSessionId ∧ config.defaultSessionPathOverride ≠ none

end AgentManagerConfig

/-! ## Names of session files -/

theorem lt_of_isSessionIdChar {char : Char} (allowed : isSessionIdChar char = true) :
    char.toNat < 128 := by
  have below : ∀ {bound : UInt32}, bound.toNat < 128 → decide (char.val ≤ bound) = true →
      char.toNat < 128 := fun small within =>
    (UInt32.le_iff_toNat_le.mp (of_decide_eq_true within)).trans_lt small
  rw [isSessionIdChar, Bool.or_eq_true, Bool.or_eq_true, decide_eq_true_eq, decide_eq_true_eq]
    at allowed
  rcases allowed with (alphanumeric | rfl) | rfl
  · rcases (Bool.or_eq_true _ _).mp alphanumeric with letter | digit
    · rcases (Bool.or_eq_true _ _).mp letter with upper | lower
      · exact below (by decide) (decide_eq_true (of_decide_eq_true upper).2)
      · exact below (by decide) ((Bool.and_eq_true _ _).mp lower).2
    · exact below (by decide) ((Bool.and_eq_true _ _).mp digit).2
  · decide
  · decide

theorem separator_not_mem_char {char : Char} (allowed : isSessionIdChar char = true) :
    Path.separator ∉ String.utf8EncodeChar char := by
  have ascii : ∀ n < 128, isSessionIdChar (Char.ofNat n) = true →
      Path.separator ∉ String.utf8EncodeChar (Char.ofNat n) := by decide +kernel
  have absent := ascii char.toNat (lt_of_isSessionIdChar allowed)
  rw [Char.ofNat_toNat] at absent
  exact absent allowed

section Names

variable {sessionId left right : Text}

theorem validSessionId_iff : ValidSessionId sessionId ↔
    sessionId ≠ [] ∧ byteLen sessionId ≤ 64 ∧ ∀ char ∈ sessionId, isSessionIdChar char = true := by
  rw [ValidSessionId, validateSessionId, ← List.all_eq_true]
  by_cases empty : sessionId = []
  · simp [empty]
  · by_cases long : byteLen sessionId > 64
    · simp [long, Nat.not_le_of_lt long]
    · cases allowed : sessionId.all isSessionIdChar <;> simp [empty, long, Nat.le_of_not_lt long]

theorem sessionFileName_injective (equal : sessionFileName left = sessionFileName right) :
    left = right :=
  List.append_cancel_right (utf8_injective equal)

theorem isName_sessionFileName (valid : ValidSessionId sessionId) :
    Path.IsName (sessionFileName sessionId) := by
  have length : (sessionFileName sessionId).length = byteLen sessionId + 13 := by
    rw [sessionFileName, length_utf8, byteLen_append]
    rfl
  have longer : ∀ {name : Bytes}, name.length < 13 → sessionFileName sessionId ≠ name := by
    rintro name short rfl
    omega
  refine ⟨longer (by decide), longer (by decide), longer (by decide), ?_⟩
  rw [sessionFileName, utf8_append, List.mem_append, not_or]
  refine ⟨fun member => ?_, by decide +kernel⟩
  obtain ⟨char, inside, isByte⟩ := List.mem_flatMap.mp member
  exact separator_not_mem_char ((validSessionId_iff.mp valid).2.2 char inside) isByte

end Names

/-! ## One file for every session -/

/-- Sessions have paths and files of their own, inside the directory unless set apart. -/
structure AgentManagerConfig.Apart (config : AgentManagerConfig) (current : List Bytes) :
    Prop where
  paths : ∀ left right, ValidSessionId left → ValidSessionId right → left ≠ right →
    Path.components (config.sessionPathFor left) ≠ Path.components (config.sessionPathFor right)
  files : ∀ left right, ValidSessionId left → ValidSessionId right → left ≠ right →
    Path.locate current (config.sessionPathFor left) ≠
      Path.locate current (config.sessionPathFor right)
  children : ∀ sessionId, ValidSessionId sessionId → ¬config.Overridden sessionId →
    ∃ name, Path.components (config.sessionPathFor sessionId) =
      Path.components config.sessionsDir ++ [.normal name]

/-- The path that is set apart is not where another session has its file. -/
def AgentManagerConfig.OverrideApart (config : AgentManagerConfig) (current : List Bytes) :
    Prop :=
  ValidSessionId config.defaultSessionId → ∀ path, config.defaultSessionPathOverride = some path →
    ∀ sessionId, ValidSessionId sessionId → sessionId ≠ config.defaultSessionId →
      Path.locate current path ≠ Path.locate current (config.patternPath sessionId)

section Paths

variable {config : AgentManagerConfig} {sessionId : Text} {current : List Bytes}

theorem sessionPathFor_of_not_overridden (notOverridden : ¬config.Overridden sessionId) :
    config.sessionPathFor sessionId = config.patternPath sessionId := by
  rw [AgentManagerConfig.sessionPathFor]
  split
  next isDefault =>
    cases override : config.defaultSessionPathOverride with
    | none => rfl
    | some path => exact absurd ⟨isDefault, by simp [override]⟩ notOverridden
  next => rfl

theorem sessionPathFor_default {path : Path}
    (override : config.defaultSessionPathOverride = some path) :
    config.sessionPathFor config.defaultSessionId = path := by
  rw [AgentManagerConfig.sessionPathFor, if_pos rfl, override]

theorem locate_patternPath (valid : ValidSessionId sessionId) :
    Path.locate current (config.patternPath sessionId) =
      Path.locate current config.sessionsDir ++ [sessionFileName sessionId] :=
  Path.locate_join current (isName_sessionFileName valid)

theorem patternPath_injective {left right : Text} (validLeft : ValidSessionId left)
    (validRight : ValidSessionId right)
    (same : Path.locate current (config.patternPath left) =
      Path.locate current (config.patternPath right)) : left = right := by
  rw [locate_patternPath validLeft, locate_patternPath validRight, List.append_cancel_left_eq,
    List.singleton_inj] at same
  exact sessionFileName_injective same

/-- The file of the default session is not that of another one. -/
theorem locate_ne_of_overridden (apart : config.OverrideApart current) {left right : Text}
    (validLeft : ValidSessionId left) (validRight : ValidSessionId right) (differ : left ≠ right)
    (overridden : config.Overridden left) :
    Path.locate current (config.sessionPathFor left) ≠
      Path.locate current (config.sessionPathFor right) := by
  obtain ⟨rfl, hasOverride⟩ := overridden
  obtain ⟨path, override⟩ := Option.ne_none_iff_exists'.mp hasOverride
  have ordinary : ¬config.Overridden right := fun isDefault => differ isDefault.1.symm
  rw [sessionPathFor_default override, sessionPathFor_of_not_overridden ordinary]
  exact apart validLeft path override right validRight (Ne.symm differ)

theorem locate_ne (apart : config.OverrideApart current) {left right : Text}
    (validLeft : ValidSessionId left) (validRight : ValidSessionId right) (differ : left ≠ right) :
    Path.locate current (config.sessionPathFor left) ≠
      Path.locate current (config.sessionPathFor right) := by
  by_cases onLeft : config.Overridden left
  · exact locate_ne_of_overridden apart validLeft validRight differ onLeft
  by_cases onRight : config.Overridden right
  · exact (locate_ne_of_overridden apart validRight validLeft differ.symm onRight).symm
  rw [sessionPathFor_of_not_overridden onLeft, sessionPathFor_of_not_overridden onRight]
  exact fun same => differ (patternPath_injective validLeft validRight same)

end Paths

/-- **Sessions never share a file** if and only if the path that is set apart for the default
session is not that of another session. -/
theorem apart_iff (config : AgentManagerConfig) (current : List Bytes) :
    config.Apart current ↔ config.OverrideApart current := by
  constructor
  · intro apart validDefault path override sessionId valid differ
    have ordinary : ¬config.Overridden sessionId := fun isDefault => differ isDefault.1
    have files := apart.files _ _ validDefault valid (Ne.symm differ)
    rwa [sessionPathFor_default override, sessionPathFor_of_not_overridden ordinary] at files
  · intro apart
    refine ⟨fun left right validLeft validRight differ same => ?_, fun _ _ => locate_ne apart,
      fun sessionId valid ordinary => ?_⟩
    · exact locate_ne apart validLeft validRight differ
        (Path.locate_eq_of_components_eq current same)
    · rw [sessionPathFor_of_not_overridden ordinary]
      exact ⟨_, Path.components_join (isName_sessionFileName valid)⟩

/-- The command line of the quickstart: the default session is kept in the file of `demo`. -/
def quickstartConfig : AgentManagerConfig where
  sessionsDir := utf8 (text "./sessions")
  defaultSystemPrompt := text "You are a helpful assistant."
  defaultSessionId := text "default"
  defaultSessionPathOverride := some (utf8 (text "./sessions/demo.session.json"))

theorem not_apart_quickstart : ¬∀ config current, AgentManagerConfig.Apart config current := by
  intro claim
  have paths := (claim quickstartConfig []).paths (text "default") (text "demo")
    (by decide +kernel) (by decide +kernel) (by decide)
  exact absurd rfl paths

end ZkLlmGateway.Client
