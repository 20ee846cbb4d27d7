import ZkLlmGateway.Client.Mapping
import ZkLlmGateway.Transition.KeyedLog

/-!
# What a redactor records

A redactor has its map twice: as a map, and as the entries of its state.  A
placeholder enters both together, and only when it is not mapped yet, so the
state always restores the redactor it was taken from.
-/

namespace ZkLlmGateway.Client

open ZkLlmGateway.Encoding ZkLlmGateway.Transition

attribute [ext] RedactionState

/-! ## Calls -/

/-- What is called of a redactor. -/
inductive RedactorCall
  | redact (content : Text) (mode : RedactMode) (extraTerms : List Text)
  | addCustomTerm (term : Text)

namespace Redactor

def call (engine : Engine) (red : Redactor) : RedactorCall → Redactor
  | .redact content mode extraTerms => (red.redact engine content mode extraTerms).2
  | .addCustomTerm term => red.addCustomTerm term

/-- The redactor after some calls. -/
def after (engine : Engine) (red : Redactor) (calls : List RedactorCall) : Redactor :=
  calls.foldl (call engine) red

/-- Record entries, one after the other. -/
def upserts (red : Redactor) (entries : List RedactionEntry) : Redactor :=
  entries.foldl (fun red entry => red.upsertMapping entry.placeholder entry.original entry.kind) red

/-- The state says all that the redactor knows. -/
def Restored (red : Redactor) : Prop :=
  Redactor.fromState red.state = some red

/-- A later redactor of the same salt, with entries and terms at the end that are new. -/
structure Extended (red later : Redactor) : Prop where
  salt : later.salt = red.salt
  saltB64 : later.state.saltB64 = red.state.saltB64
  entries : ExtendsLog RedactionEntry.placeholder red.state.entries later.state.entries
  customTerms : ExtendsLog id red.state.customTerms later.state.customTerms

/-- Two redactors that replace the same parts by the same placeholders. -/
structure Alike (red other : Redactor) : Prop where
  salt : other.salt = red.salt
  customTerms : other.state.customTerms = red.state.customTerms
  lookup : ∀ placeholder, other.rev.lookup placeholder = red.rev.lookup placeholder

end Redactor

/-- What a pass records. -/
def Pass.records (engine : Engine) (salt : Block 32) (pass : Pass) (content : Text) :
    List RedactionEntry :=
  (pass.uses engine salt content).map fun use => ⟨use.1, use.2, pass.kind⟩

/-- What passes record, with repetitions. -/
def recordsOf (engine : Engine) (salt : Block 32) : List Pass → Text → List RedactionEntry
  | [], _ => []
  | pass :: rest, content =>
      pass.records engine salt content ++ recordsOf engine salt rest (pass.text engine salt content)

/-- What a redaction records. -/
def Redactor.records (engine : Engine) (red : Redactor) (content : Text) (mode : RedactMode)
    (extraTerms : List Text) : List RedactionEntry :=
  recordsOf engine red.salt (passes engine mode (red.state.customTerms ++ extraTerms)) content

/-! ## A redaction is what it records -/

section Records

variable {engine : Engine} (red : Redactor) (entries : List RedactionEntry)

@[simp]
theorem Redactor.salt_upserts : (red.upserts entries).salt = red.salt := by
  induction entries generalizing red with
  | nil => rfl
  | cons entry entries inductionHypothesis =>
      exact (inductionHypothesis _).trans (red.salt_upsertMapping _ _ _)

@[simp]
theorem Redactor.customTerms_upserts :
    (red.upserts entries).state.customTerms = red.state.customTerms := by
  induction entries generalizing red with
  | nil => rfl
  | cons entry entries inductionHypothesis =>
      exact (inductionHypothesis _).trans (red.customTerms_upsertMapping _ _ _)

@[simp]
theorem Redactor.saltB64_upsertMapping (placeholder original : Text) (kind : RedactionKind) :
    (red.upsertMapping placeholder original kind).state.saltB64 = red.state.saltB64 := by
  unfold Redactor.upsertMapping
  split <;> rfl

@[simp]
theorem Redactor.saltB64_upserts :
    (red.upserts entries).state.saltB64 = red.state.saltB64 := by
  induction entries generalizing red with
  | nil => rfl
  | cons entry entries inductionHypothesis =>
      exact (inductionHypothesis _).trans (red.saltB64_upsertMapping _ _ _)

theorem Redactor.upserts_append (more : List RedactionEntry) :
    red.upserts (entries ++ more) = (red.upserts entries).upserts more :=
  List.foldl_append

theorem Redactor.record_eq_upserts (kind : RedactionKind) (uses : List (Text × Text)) :
    red.record kind uses = red.upserts (uses.map fun use => ⟨use.1, use.2, kind⟩) := by
  rw [Redactor.record, Redactor.upserts, List.foldl_map]

theorem foldl_run_eq_upserts (engine : Engine) (list : List Pass) (content : Text)
    (red : Redactor) :
    (list.foldl (Pass.run engine) (content, red)).2 =
      red.upserts (recordsOf engine red.salt list content) := by
  induction list generalizing content red with
  | nil => rfl
  | cons pass list inductionHypothesis =>
      rw [List.foldl_cons, Pass.run_eq, inductionHypothesis, Redactor.record_eq_upserts,
        Redactor.salt_upserts, ← Redactor.upserts_append]
      rfl

/-- A redaction leaves the redactor with what it records. -/
theorem Redactor.redact_eq_upserts (engine : Engine) (content : Text) (mode : RedactMode)
    (extraTerms : List Text) :
    (red.redact engine content mode extraTerms).2 =
      red.upserts (red.records engine content mode extraTerms) := by
  rw [Redactor.redact_eq, foldl_run_eq_upserts]
  rfl

end Records

/-! ## The state restores the redactor -/

namespace Redactor

variable {red built later latest other : Redactor}

/-- A redactor that was read from a state has that state. -/
theorem state_of_fromState {state : RedactionState} (isBuilt : fromState state = some red) :
    red.state = state := by
  obtain ⟨salt, _, rfl⟩ := Option.map_eq_some_iff.mp isBuilt
  rfl

theorem restored_of_fromState {state : RedactionState} (isBuilt : fromState state = some red) :
    red.Restored := by
  rw [Restored, state_of_fromState isBuilt]
  exact isBuilt

/-- The map of a restored redactor is what its entries insert, in their order. -/
theorem restored_iff : red.Restored ↔
    decodeB64x32 red.state.saltB64 = some red.salt ∧
      red.rev = red.state.entries.foldl
        (fun rev entry => revInsert rev entry.placeholder entry.original) [] := by
  rw [Restored, fromState, Option.map_eq_some_iff]
  constructor
  · rintro ⟨salt, decoded, same⟩
    rw [← same]
    exact ⟨decoded, rfl⟩
  · rintro ⟨decoded, rev⟩
    refine ⟨red.salt, decoded, ?_⟩
    rw [← rev]

theorem lookup_filter_ne (rev : List (Text × Text)) {placeholder key : Text}
    (differ : placeholder ≠ key) :
    (rev.filter (·.1 ≠ placeholder)).lookup key = rev.lookup key := by
  induction rev with
  | nil => rfl
  | cons pair rev inductionHypothesis =>
      by_cases dropped : pair.1 = placeholder
      · have other : (key == pair.1) = false := by
          simpa [dropped] using Ne.symm differ
        rw [List.filter_cons_of_neg (by simpa using dropped), List.lookup_cons, other]
        exact inductionHypothesis
      · rw [List.filter_cons_of_pos (by simpa using dropped), List.lookup_cons, List.lookup_cons,
          inductionHypothesis]

theorem lookup_revInsert_eq (rev : List (Text × Text)) (placeholder original key : Text) :
    (revInsert rev placeholder original).lookup key =
      if placeholder = key then some original else rev.lookup key := by
  rw [revInsert]
  split
  next same => simp [same]
  next differ =>
    have other : (key == placeholder) = false := by simpa using Ne.symm differ
    rw [List.lookup_cons, other]
    exact lookup_filter_ne rev differ

/-- The entry that was stored last counts. -/
theorem lookup_foldl_revInsert (entries : List RedactionEntry) (placeholder : Text) :
    (entries.foldl (fun rev entry => revInsert rev entry.placeholder entry.original) []).lookup
        placeholder =
      (lastEntry RedactionEntry.placeholder entries placeholder).map RedactionEntry.original := by
  induction entries using List.reverseRecOn with
  | nil => rfl
  | append_singleton entries entry inductionHypothesis =>
      rw [List.foldl_append, List.foldl_cons, List.foldl_nil, lookup_revInsert_eq,
        inductionHypothesis, lastEntry_concat]
      split <;> rfl

theorem Restored.lookup_eq (restored : red.Restored) (placeholder : Text) :
    red.rev.lookup placeholder =
      (lastEntry RedactionEntry.placeholder red.state.entries placeholder).map
        RedactionEntry.original := by
  rw [(restored_iff.mp restored).2, lookup_foldl_revInsert]

/-- What is mapped is what has an entry. -/
theorem Restored.mem_iff (restored : red.Restored) {placeholder : Text} :
    placeholder ∈ red.rev.map Prod.fst ↔
      placeholder ∈ red.state.entries.map RedactionEntry.placeholder := by
  rw [← isSome_lookup_iff, restored.lookup_eq, Option.isSome_map, Option.isSome_iff_ne_none, ne_eq,
    lastEntry_eq_none_iff, not_not]

/-- Recording appends to the entries what is new. -/
theorem Restored.entries_upsertMapping (restored : red.Restored) (entry : RedactionEntry) :
    (red.upsertMapping entry.placeholder entry.original entry.kind).state.entries =
      appendNew RedactionEntry.placeholder red.state.entries entry := by
  rw [upsertMapping, appendNew]
  by_cases known : entry.placeholder ∈ red.rev.map Prod.fst
  · rw [if_pos known, if_pos (restored.mem_iff.mp known)]
  · rw [if_neg known, if_neg fun member => known (restored.mem_iff.mpr member)]

theorem Restored.upsertMapping (restored : red.Restored) (entry : RedactionEntry) :
    (red.upsertMapping entry.placeholder entry.original entry.kind).Restored := by
  unfold Redactor.upsertMapping
  split
  next => exact restored
  next =>
    have stored := restored_iff.mp restored
    apply restored_iff.mpr
    constructor
    · exact stored.1
    · rw [List.foldl_append, ← stored.2]
      rfl

theorem Restored.upserts (restored : red.Restored) (entries : List RedactionEntry) :
    (red.upserts entries).Restored := by
  induction entries generalizing red with
  | nil => exact restored
  | cons entry entries inductionHypothesis =>
      exact inductionHypothesis (restored.upsertMapping entry)

theorem Restored.entries_upserts (restored : red.Restored) (entries : List RedactionEntry) :
    (red.upserts entries).state.entries =
      entries.foldl (appendNew RedactionEntry.placeholder) red.state.entries := by
  induction entries generalizing red with
  | nil => rfl
  | cons entry entries inductionHypothesis =>
      rw [List.foldl_cons, ← restored.entries_upsertMapping entry]
      exact inductionHypothesis (restored.upsertMapping entry)

/-- Recording leaves a state as it was exactly when all placeholders have entries. -/
theorem Restored.state_upserts_iff (restored : red.Restored) {entries : List RedactionEntry} :
    (red.upserts entries).state = red.state ↔
      ∀ entry ∈ entries, entry.placeholder ∈ red.state.entries.map RedactionEntry.placeholder := by
  rw [← foldl_appendNew_eq_self_iff, ← restored.entries_upserts]
  constructor
  · exact congrArg RedactionState.entries
  · intro same
    exact RedactionState.ext (red.saltB64_upserts entries) same (red.customTerms_upserts entries)

theorem Restored.addCustomTerm (restored : red.Restored) (term : Text) :
    (red.addCustomTerm term).Restored := by
  have stored := restored_iff.mp restored
  unfold Redactor.addCustomTerm
  split
  next => exact restored
  next =>
    split
    next => exact restored
    next => exact restored_iff.mpr stored

theorem Restored.redact (engine : Engine) (restored : red.Restored) (content : Text)
    (mode : RedactMode)
    (extraTerms : List Text) : (red.redact engine content mode extraTerms).2.Restored := by
  rw [redact_eq_upserts]
  exact restored.upserts _

/-! ## Runs -/

theorem Extended.refl (red : Redactor) : red.Extended red :=
  ⟨rfl, rfl, .refl _, .refl _⟩

theorem Extended.trans (first : red.Extended later) (next : later.Extended latest) :
    red.Extended latest :=
  ⟨next.salt.trans first.salt, next.saltB64.trans first.saltB64, first.entries.trans next.entries,
    first.customTerms.trans next.customTerms⟩

theorem Restored.extended_upserts (restored : red.Restored) (entries : List RedactionEntry) :
    red.Extended (red.upserts entries) := by
  constructor
  · exact red.salt_upserts entries
  · exact red.saltB64_upserts entries
  · rw [restored.entries_upserts]
    exact extendsLog_foldl _ _
  · rw [red.customTerms_upserts]
    exact .refl _

theorem extended_addCustomTerm (red : Redactor) (term : Text) :
    red.Extended (red.addCustomTerm term) := by
  unfold Redactor.addCustomTerm
  split
  next => exact .refl red
  next =>
    split
    next => exact .refl red
    next isNew =>
      constructor
      · rfl
      · rfl
      · exact .refl _
      · apply ExtendsLog.of_not_mem
        rwa [List.map_id]

variable (engine : Engine)

theorem Restored.call (restored : red.Restored) (redactorCall : RedactorCall) :
    (red.call engine redactorCall).Restored := by
  cases redactorCall with
  | redact content mode extraTerms => exact restored.redact engine content mode extraTerms
  | addCustomTerm term => exact restored.addCustomTerm term

theorem Restored.extended_call (restored : red.Restored) (redactorCall : RedactorCall) :
    red.Extended (red.call engine redactorCall) := by
  cases redactorCall with
  | redact content mode extraTerms =>
      rw [Redactor.call, redact_eq_upserts]
      exact restored.extended_upserts _
  | addCustomTerm term => exact red.extended_addCustomTerm term

/-- After any calls the state restores the redactor, and has what it had before in front. -/
theorem Restored.after (restored : red.Restored) (calls : List RedactorCall) :
    (red.after engine calls).Restored ∧ red.Extended (red.after engine calls) := by
  induction calls generalizing red with
  | nil => exact ⟨restored, .refl red⟩
  | cons redactorCall calls inductionHypothesis =>
      have later := inductionHypothesis (restored.call engine redactorCall)
      exact ⟨later.1, (restored.extended_call engine redactorCall).trans later.2⟩

theorem after_append (red : Redactor) (made calls : List RedactorCall) :
    red.after engine (made ++ calls) = (red.after engine made).after engine calls :=
  List.foldl_append

/-! ## Redactors with the same map -/

theorem Alike.refl (red : Redactor) : red.Alike red :=
  ⟨rfl, rfl, fun _ => rfl⟩

/-- The map may be stored in any order: a redaction writes the same text, and leaves the same
map. -/
theorem Alike.redact (alike : red.Alike other) (content : Text) (mode : RedactMode)
    (extraTerms : List Text) :
    (other.redact engine content mode extraTerms).1 =
        (red.redact engine content mode extraTerms).1 ∧
      (red.redact engine content mode extraTerms).2.Alike
        (other.redact engine content mode extraTerms).2 := by
  rw [redact_eq, redact_eq, alike.customTerms]
  generalize passes engine mode (red.state.customTerms ++ extraTerms) = list
  have left := foldl_run engine list content red
  have right := foldl_run engine list content other
  rw [alike.salt] at right
  constructor
  · rw [left.1, right.1]
  · constructor
    · rw [salt_foldl_run, salt_foldl_run]
      exact alike.salt
    · rw [customTerms_foldl_run, customTerms_foldl_run]
      exact alike.customTerms
    · intro placeholder
      rw [left.2, right.2, lookup_append, lookup_append, alike.lookup]

theorem Alike.addCustomTerm (alike : red.Alike other) (term : Text) :
    (red.addCustomTerm term).Alike (other.addCustomTerm term) := by
  unfold Redactor.addCustomTerm
  rw [alike.customTerms]
  split
  next => exact alike
  next =>
    split
    next => exact alike
    next => exact ⟨alike.salt, rfl, alike.lookup⟩

theorem Alike.call (alike : red.Alike other) (redactorCall : RedactorCall) :
    (red.call engine redactorCall).Alike (other.call engine redactorCall) := by
  cases redactorCall with
  | redact content mode extraTerms => exact (alike.redact engine content mode extraTerms).2
  | addCustomTerm term => exact alike.addCustomTerm term

theorem Alike.after (alike : red.Alike other) (calls : List RedactorCall) :
    (red.after engine calls).Alike (other.after engine calls) := by
  induction calls generalizing red other with
  | nil => exact alike
  | cons redactorCall calls inductionHypothesis =>
      exact inductionHypothesis (alike.call engine redactorCall)

/-- **A redactor survives being stored**: after any calls its state restores its salt, its terms
and its map; entries are only appended, under placeholders that are not mapped; and whatever the
order in which the restored map is stored, further calls write the same texts and leave the same
maps. -/
theorem survives (state : RedactionState) (isBuilt : fromState state = some built)
    (calls : List RedactorCall) :
    ∃ restored, fromState (built.after engine calls).state = some restored ∧
      (built.after engine calls).Alike restored ∧
      (∀ placeholder, restored.rev.lookup placeholder =
        (lastEntry RedactionEntry.placeholder (built.after engine calls).state.entries
          placeholder).map RedactionEntry.original) ∧
      (∀ made rest, made ++ rest = calls → ∃ added,
        (built.after engine calls).state.entries =
            (built.after engine made).state.entries ++ added ∧
          (added.map RedactionEntry.placeholder).Nodup ∧
          ∀ entry ∈ added, (built.after engine made).rev.lookup entry.placeholder = none) ∧
      ∀ other : Redactor, restored.Alike other →
        ∀ (further : List RedactorCall) (content : Text) (mode : RedactMode)
          (extraTerms : List Text),
          ((other.after engine further).redact engine content mode extraTerms).1 =
              (((built.after engine calls).after engine further).redact engine content mode
                extraTerms).1 ∧
            (((built.after engine calls).after engine further).redact engine content mode
              extraTerms).2.Alike
                ((other.after engine further).redact engine content mode extraTerms).2 := by
  have start : built.Restored := restored_of_fromState isBuilt
  have restored := (start.after engine calls).1
  refine ⟨built.after engine calls, restored, .refl _, restored.lookup_eq, ?_, ?_⟩
  · rintro made rest rfl
    have before := (start.after engine made).1
    obtain ⟨added, same, distinct, isNew⟩ := (before.after engine rest).2.entries
    refine ⟨added, by rw [after_append]; exact same, distinct, fun entry member => ?_⟩
    rw [before.lookup_eq, lastEntry_eq_none_iff.mpr (isNew entry member), Option.map_none]
  · intro other alike further content mode extraTerms
    exact (alike.after engine further).redact engine content mode extraTerms

end Redactor

/-- A state that has two entries for one placeholder. -/
def doubledState : RedactionState where
  saltB64 := Base64.encode (Block.replicate 32 0).val
  entries := [⟨text "<A>", text "a", .custom⟩, ⟨text "<A>", text "b", .custom⟩]
  customTerms := []

def doubledRedactor : Redactor where
  salt := Block.replicate 32 0
  rev := [(text "<A>", text "b")]
  state := doubledState

theorem fromState_doubledState : Redactor.fromState doubledState = some doubledRedactor := by
  rw [Redactor.fromState, decodeB64x32, doubledState, Base64.decode_encode, Option.bind_some,
    Block.ofBytes?_val]
  rfl

/-- The later entry is the one that is kept, also after an address and a term were added. -/
theorem survives_doubled :
    ∃ restored, Redactor.fromState (doubledRedactor.after (.ofTable [])
        [.redact (text "to a@b.cd") .basic [], .addCustomTerm (text "Ann")]).state =
          some restored ∧
      (doubledRedactor.after (.ofTable [])
        [.redact (text "to a@b.cd") .basic [], .addCustomTerm (text "Ann")]).Alike restored := by
  have survived := Redactor.survives (.ofTable []) doubledState fromState_doubledState
    [.redact (text "to a@b.cd") .basic [], .addCustomTerm (text "Ann")]
  obtain ⟨restored, isRestored, alike, _⟩ := survived
  exact ⟨restored, isRestored, alike⟩

end ZkLlmGateway.Client
