import ZkLlmGateway.Client.Redaction

/-!
# The passes of a redaction

Every part of `redact`, custom terms included, is one pass: it replaces what a
pattern finds by placeholders and records them.
-/

namespace ZkLlmGateway.Client

open ZkLlmGateway.Encoding ZkLlmGateway.Matching

/-- A pattern, and how its matches are recorded. -/
structure Pass where
  pattern : List (Piece Char)
  kind : RedactionKind
  tag : Text

/-- The passes of every mode but `none`, in their order. -/
def basicPasses (engine : Engine) : List Pass := [
  ⟨rePrivateKeyBlock, .privateKey, text "PRIVATE_KEY"⟩,
  ⟨reOpenaiKey, .apiKey, text "API_KEY"⟩,
  ⟨reEmail, .email, text "EMAIL"⟩,
  ⟨rePhone engine, .phone, text "PHONE"⟩,
  ⟨reEthAddress, .ethAddress, text "ETH_ADDR"⟩]

def urlPass : Pass :=
  ⟨reUrl, .url, text "URL"⟩

def builtinPasses (engine : Engine) (mode : RedactMode) : List Pass :=
  match mode with
  | .none => []
  | .basic => basicPasses engine
  | .strict => basicPasses engine ++ [urlPass]

def termPass (term : Text) : Pass :=
  ⟨literally term, .custom, text "CUSTOM"⟩

/-- Blank terms have no pass. -/
def termPasses (terms : List Text) : List Pass :=
  (terms.filter fun term => !(trim term).isEmpty).map termPass

def passes (engine : Engine) (mode : RedactMode) (terms : List Text) : List Pass :=
  match mode with
  | .none => []
  | _ => builtinPasses engine mode ++ termPasses terms

section Passes

variable (engine : Engine)

/-- The text a pass leaves. -/
def Pass.text (salt : Block 32) (pass : Pass) (content : Text) : Text :=
  rewrite (find pass.pattern) (placeholderFor engine salt pass.tag) content

/-- The placeholders a pass puts in, with the originals. -/
def Pass.uses (salt : Block 32) (pass : Pass) (content : Text) : List (Text × Text) :=
  (hits (find pass.pattern) content).map fun matched =>
    (placeholderFor engine salt pass.tag matched, matched)

/-- Record placeholders in order. -/
def Redactor.record (red : Redactor) (kind : RedactionKind) (uses : List (Text × Text)) :
    Redactor :=
  uses.foldl (fun red use => red.upsertMapping use.1 use.2 kind) red

/-- A pass over a text, with the redactor that records it. -/
def Pass.run (state : Text × Redactor) (pass : Pass) : Text × Redactor :=
  redactRegex engine state.2 state.1 pass.pattern pass.kind pass.tag

@[simp]
theorem Redactor.salt_upsertMapping (red : Redactor) (placeholder original : Text)
    (kind : RedactionKind) : (red.upsertMapping placeholder original kind).salt = red.salt := by
  unfold Redactor.upsertMapping
  split <;> rfl

@[simp]
theorem Redactor.customTerms_upsertMapping (red : Redactor) (placeholder original : Text)
    (kind : RedactionKind) :
    (red.upsertMapping placeholder original kind).state.customTerms = red.state.customTerms := by
  unfold Redactor.upsertMapping
  split <;> rfl

@[simp]
theorem Redactor.salt_record (red : Redactor) (kind : RedactionKind)
    (uses : List (Text × Text)) : (red.record kind uses).salt = red.salt := by
  induction uses generalizing red with
  | nil => rfl
  | cons use uses inductionHypothesis =>
      exact (inductionHypothesis _).trans (red.salt_upsertMapping use.1 use.2 kind)

@[simp]
theorem Redactor.customTerms_record (red : Redactor) (kind : RedactionKind)
    (uses : List (Text × Text)) :
    (red.record kind uses).state.customTerms = red.state.customTerms := by
  induction uses generalizing red with
  | nil => rfl
  | cons use uses inductionHypothesis =>
      exact (inductionHypothesis _).trans (red.customTerms_upsertMapping use.1 use.2 kind)

/-- A pass rewrites the text and records what it puts in. -/
theorem Pass.run_eq (pass : Pass) (content : Text) (red : Redactor) :
    pass.run engine (content, red) =
      (pass.text engine red.salt content,
        red.record pass.kind (pass.uses engine red.salt content)) := by
  have stepwise : ∀ (salt : Block 32) (red : Redactor), red.salt = salt →
      replaceSegments engine pass.kind pass.tag red (segments (find pass.pattern) content) =
        (rewrite (find pass.pattern) (placeholderFor engine salt pass.tag) content,
          red.record pass.kind (pass.uses engine salt content)) := by
    intro salt
    unfold Pass.uses
    induction content using scan_induction (find pass.pattern) with
    | nil =>
        intro red _
        rfl
    | keep char rest nothing inductionHypothesis =>
        intro red same
        rw [segments_keep nothing, replaceSegments, inductionHypothesis red same,
          rewrite_keep nothing, hits_keep nothing]
    | hit char rest count found inductionHypothesis =>
        intro red same
        subst same
        rw [segments_hit found, replaceSegments,
          inductionHypothesis _ (red.salt_upsertMapping _ _ _), rewrite_hit found, hits_hit found,
          List.map_cons]
        rfl
  exact stepwise red.salt red rfl

theorem Redactor.mem_rev_upsertMapping (red : Redactor) (placeholder original : Text)
    (kind : RedactionKind) :
    placeholder ∈ (red.upsertMapping placeholder original kind).rev.map Prod.fst := by
  unfold Redactor.upsertMapping
  split
  next member => exact member
  next => simp [revInsert]

/-- Recording one placeholder many times is recording it once. -/
theorem Redactor.record_same (red : Redactor) (kind : RedactionKind) {uses : List (Text × Text)}
    {placeholder original : Text} (nonempty : uses ≠ [])
    (same : ∀ use ∈ uses, use = (placeholder, original)) :
    red.record kind uses = red.upsertMapping placeholder original kind := by
  have known : ∀ (uses : List (Text × Text)) (red : Redactor),
      placeholder ∈ red.rev.map Prod.fst → (∀ use ∈ uses, use = (placeholder, original)) →
      red.record kind uses = red := by
    intro uses
    induction uses with
    | nil => exact fun _ _ _ => rfl
    | cons use uses inductionHypothesis =>
        intro red member all
        obtain rfl := all use List.mem_cons_self
        have unchanged : red.upsertMapping placeholder original kind = red := if_pos member
        rw [Redactor.record, List.foldl_cons, unchanged]
        exact inductionHypothesis red member fun other inside =>
          all other (List.mem_cons_of_mem _ inside)
  obtain ⟨use, uses, rfl⟩ := List.exists_cons_of_ne_nil nonempty
  obtain rfl := same use List.mem_cons_self
  refine known uses _ ?_ fun other inside => same other (List.mem_cons_of_mem _ inside)
  exact red.mem_rev_upsertMapping placeholder original kind

/-- The pass of a custom term. -/
theorem redactTerm_eq (content : Text) (red : Redactor) (term : Text) :
    redactTerm engine (content, red) term =
      if (trim term).isEmpty then (content, red)
      else (termPass term).run engine (content, red) := by
  simp only [redactTerm]
  split
  next => rfl
  next visible =>
    have nonempty : term ≠ [] := by
      rintro rfl
      exact visible rfl
    rw [Pass.run_eq, redactLiteral]
    by_cases present : term <:+: content
    · rw [if_neg (not_not.mpr present)]
      apply Prod.ext
      · simp only [replace, Pass.text, termPass]
        exact (rewrite_congr fun matched found => by rw [mem_hits_literally found]).symm
      · refine (red.record_same .custom ?_ ?_).symm
        · simp [Pass.uses, termPass, hits_literally_eq_nil_iff nonempty, present]
        · intro use member
          obtain ⟨matched, found, rfl⟩ := List.mem_map.mp member
          rw [termPass] at found
          rw [mem_hits_literally found]
          rfl
    · have nothing := (hits_literally_eq_nil_iff nonempty).mpr present
      rw [if_pos present, Pass.text, Pass.uses, termPass]
      simp only [nothing, rewrite_of_hits_eq_nil nothing]
      rfl

theorem foldl_redactTerm (terms : List Text) (state : Text × Redactor) :
    terms.foldl (redactTerm engine) state = (termPasses terms).foldl (Pass.run engine) state := by
  induction terms generalizing state with
  | nil => rfl
  | cons term terms inductionHypothesis =>
      rw [List.foldl_cons, inductionHypothesis, redactTerm_eq engine state.1 state.2]
      simp only [termPasses, List.filter_cons]
      cases (trim term).isEmpty <;> rfl

theorem customTerms_foldl_run (list : List Pass) (state : Text × Redactor) :
    (list.foldl (Pass.run engine) state).2.state.customTerms = state.2.state.customTerms := by
  induction list generalizing state with
  | nil => rfl
  | cons pass list inductionHypothesis =>
      rw [List.foldl_cons, inductionHypothesis, Pass.run_eq]
      exact state.2.customTerms_record _ _

theorem salt_foldl_run (list : List Pass) (state : Text × Redactor) :
    (list.foldl (Pass.run engine) state).2.salt = state.2.salt := by
  induction list generalizing state with
  | nil => rfl
  | cons pass list inductionHypothesis =>
      rw [List.foldl_cons, inductionHypothesis, Pass.run_eq]
      exact state.2.salt_record _ _

/-- **A redaction is its passes**, one after the other. -/
theorem Redactor.redact_eq (red : Redactor) (content : Text) (mode : RedactMode)
    (extraTerms : List Text) :
    red.redact engine content mode extraTerms =
      (passes engine mode (red.state.customTerms ++ extraTerms)).foldl (Pass.run engine)
        (content, red) := by
  by_cases inactive : mode = .none
  · subst inactive
    rfl
  rcases first : redactRegex engine red content rePrivateKeyBlock .privateKey
    (text "PRIVATE_KEY") with ⟨out₁, red₁⟩
  rcases second : redactRegex engine red₁ out₁ reOpenaiKey .apiKey (text "API_KEY") with
    ⟨out₂, red₂⟩
  rcases third : redactRegex engine red₂ out₂ reEmail .email (text "EMAIL") with ⟨out₃, red₃⟩
  rcases fourth : redactRegex engine red₃ out₃ (rePhone engine) .phone (text "PHONE") with
    ⟨out₄, red₄⟩
  rcases fifth : redactRegex engine red₄ out₄ reEthAddress .ethAddress (text "ETH_ADDR") with
    ⟨out₅, red₅⟩
  rcases sixth : redactRegex engine red₅ out₅ reUrl .url (text "URL") with ⟨out₆, red₆⟩
  have basic : (basicPasses engine).foldl (Pass.run engine) (content, red) = (out₅, red₅) := by
    simp only [basicPasses, List.foldl_cons, List.foldl_nil, Pass.run, first, second, third,
      fourth, fifth]
  have strict : (basicPasses engine ++ [urlPass]).foldl (Pass.run engine) (content, red) =
      (out₆, red₆) := by
    simp only [List.foldl_append, basic, List.foldl_cons, List.foldl_nil, Pass.run, urlPass, sixth]
  have terms := customTerms_foldl_run engine (builtinPasses engine mode) (content, red)
  simp only [Redactor.redact, inactive, if_false, first, second, third, fourth, fifth, sixth]
  cases mode with
  | none => exact absurd rfl inactive
  | basic =>
      rw [builtinPasses, basic] at terms
      simp only [passes, builtinPasses, reduceCtorEq, if_false]
      conv_rhs => rw [List.foldl_append, basic, ← foldl_redactTerm]
      rw [terms]
  | strict =>
      rw [builtinPasses, strict] at terms
      simp only [passes, builtinPasses, if_true]
      conv_rhs => rw [List.foldl_append, strict, ← foldl_redactTerm]
      rw [terms]

end Passes

end ZkLlmGateway.Client
