import ZkLlmGateway.Client.Passes
import ZkLlmGateway.Matching.Growth

/-!
# The mapping of a redactor

A placeholder is fixed by the salt, its tag and the original.  A redactor only
ever maps placeholders of its own salt, and a placeholder that is mapped keeps
its original: what the passes put in is looked up behind what was there.
-/

namespace ZkLlmGateway.Client

open ZkLlmGateway.Encoding ZkLlmGateway.Matching

/-! ## Placeholders -/

/-- The tags of all passes. -/
def tags : List Text := [
  text "PRIVATE_KEY", text "API_KEY", text "EMAIL", text "PHONE", text "ETH_ADDR", text "URL",
  text "CUSTOM"]

def isTagChar (char : Char) : Bool :=
  isUpper char || char == '_'

theorem isTagChar_of_mem_tags {tag : Text} (member : tag ∈ tags) :
    ∀ char ∈ tag, isTagChar char = true := by
  have all : tags.all (fun tag => tag.all isTagChar) = true := by decide
  exact List.all_eq_true.mp (List.all_eq_true.mp all tag member)

section Placeholders

variable (engine : Engine) (salt : Block 32)

@[simp]
theorem length_placeholderFor (tag original : Text) :
    (placeholderFor engine salt tag original).length = tag.length + 19 := by
  have digest : ∀ block : Block 32, (block.val.take 8).length = 8 := by
    intro block
    rw [List.length_take, block.property]
    decide
  simp only [placeholderFor, List.length_cons, List.length_append, length_toHex, digest,
    List.length_nil]

/-- A placeholder of a redactor with this salt. -/
def IsPlaceholder (key : Text) : Prop :=
  ∃ tag ∈ tags, ∃ original, key = placeholderFor engine salt tag original

/-- The characters between the angle brackets. -/
def isInnerChar (char : Char) : Bool :=
  isTagChar char || isHexDigit char

variable {engine salt}

theorem isPlaceholder_placeholderFor {tag : Text} (member : tag ∈ tags) (original : Text) :
    IsPlaceholder engine salt (placeholderFor engine salt tag original) :=
  ⟨tag, member, original, rfl⟩

theorem IsPlaceholder.exists_inner {key : Text} (isPlaceholder : IsPlaceholder engine salt key) :
    ∃ inner, key = '<' :: (inner ++ ['>']) ∧ ∀ char ∈ inner, isInnerChar char = true := by
  obtain ⟨tag, member, original, rfl⟩ := isPlaceholder
  refine ⟨tag ++ '_' :: toHex ((engine.sha256 (salt.val ++ utf8 tag ++ utf8 original)).val.take 8),
    by simp [placeholderFor], ?_⟩
  intro char inside
  rw [isInnerChar, Bool.or_eq_true]
  rcases List.mem_append.mp inside with inTag | later
  · exact .inl (isTagChar_of_mem_tags member char inTag)
  · rcases List.mem_cons.mp later with rfl | digit
    · exact .inl (by decide)
    · exact .inr (isHexDigit_of_mem_toHex digit)

theorem IsPlaceholder.fenced {key : Text} (isPlaceholder : IsPlaceholder engine salt key) :
    Fenced '<' '>' key := by
  obtain ⟨inner, rfl, all⟩ := isPlaceholder.exists_inner
  refine ⟨by decide, inner, rfl, fun inside => ?_, fun inside => ?_⟩
  · exact absurd (all _ inside) (by decide)
  · exact absurd (all _ inside) (by decide)

theorem utf8Size_of_isInnerChar {char : Char} (inner : isInnerChar char = true) :
    char.utf8Size = 1 := by
  have small : char.val.toNat < 128 := by
    simp only [isInnerChar, isTagChar, isUpper, isHexDigit, Bool.or_eq_true, Bool.and_eq_true,
      decide_eq_true_eq, beq_iff_eq, Char.le_def, UInt32.le_iff_toNat_le, text,
      List.contains_eq_mem] at inner
    rcases inner with (upper | rfl) | digit
    · exact Nat.lt_of_le_of_lt upper.2 (by decide)
    · decide
    · have all : ("0123456789abcdef".toList).all (fun char => char.val.toNat < 128) = true := by
        decide
      exact of_decide_eq_true (List.all_eq_true.mp all char digit)
  rw [Char.utf8Size, if_pos (UInt32.le_iff_toNat_le.mpr (Nat.le_of_lt_succ small))]

/-- Placeholders have one byte for every character. -/
theorem IsPlaceholder.byteLen_eq {key : Text} (isPlaceholder : IsPlaceholder engine salt key) :
    byteLen key = key.length := by
  refine byteLen_eq_length fun char inside => ?_
  obtain ⟨inner, rfl, all⟩ := isPlaceholder.exists_inner
  rcases List.mem_cons.mp inside with rfl | later
  · decide
  · rcases List.mem_append.mp later with member | last
    · exact utf8Size_of_isInnerChar (all char member)
    · rw [List.mem_singleton.mp last]
      decide

end Placeholders

/-! ## Reachable redactors -/

/-- The redactors a client can come to hold. -/
inductive Redactor.Reachable (engine : Engine) : Redactor → Prop
  | new (saltB64 : Text) {red : Redactor} :
      Redactor.fromState (.new saltB64) = some red → Reachable engine red
  | addCustomTerm {red : Redactor} (term : Text) :
      Reachable engine red → Reachable engine (red.addCustomTerm term)
  | redact {red : Redactor} (content : Text) (mode : RedactMode) (extraTerms : List Text) :
      Reachable engine red → Reachable engine (red.redact engine content mode extraTerms).2
  | reload {red restored : Redactor} :
      Reachable engine red → Redactor.fromState red.state = some restored →
      Reachable engine restored

/-- The redactor of a new session, whose salt is stored in its state. -/
def Redactor.new (salt : Block 32) : Redactor where
  salt := salt
  rev := []
  state := .new (Base64.encode salt.val)

theorem fromState_new (salt : Block 32) :
    Redactor.fromState (.new (Base64.encode salt.val)) = some (.new salt) := by
  rw [Redactor.fromState, RedactionState.new, decodeB64x32, Base64.decode_encode,
    Option.bind_some, Block.ofBytes?_val]
  rfl

theorem reachable_new (engine : Engine) (salt : Block 32) :
    Redactor.Reachable engine (.new salt) :=
  .new (Base64.encode salt.val) (fromState_new salt)

/-- The salt is the stored one, and what is stored and what is mapped are
placeholders of this salt, each mapped once. -/
structure Redactor.Sound (engine : Engine) (red : Redactor) : Prop where
  salt : decodeB64x32 red.state.saltB64 = some red.salt
  entries : ∀ entry ∈ red.state.entries, IsPlaceholder engine red.salt entry.placeholder
  rev : ∀ pair ∈ red.rev, IsPlaceholder engine red.salt pair.1
  distinct : (red.rev.map Prod.fst).Nodup

section Soundness

variable {engine : Engine} {red : Redactor}

theorem mem_revInsert {rev : List (Text × Text)} {placeholder original : Text}
    {pair : Text × Text} (member : pair ∈ revInsert rev placeholder original) :
    pair = (placeholder, original) ∨ pair ∈ rev := by
  rcases List.mem_cons.mp member with rfl | later
  · exact .inl rfl
  · exact .inr (List.mem_filter.mp later).1

theorem nodup_revInsert {rev : List (Text × Text)} (placeholder original : Text)
    (distinct : (rev.map Prod.fst).Nodup) :
    ((revInsert rev placeholder original).map Prod.fst).Nodup := by
  rw [revInsert, List.map_cons, List.nodup_cons]
  constructor
  · intro member
    obtain ⟨pair, inside, same⟩ := List.mem_map.mp member
    exact of_decide_eq_true (List.mem_filter.mp inside).2 same
  · exact distinct.sublist (List.filter_sublist.map Prod.fst)

theorem Redactor.Sound.upsertMapping (sound : red.Sound engine) {placeholder original : Text}
    {kind : RedactionKind} (isPlaceholder : IsPlaceholder engine red.salt placeholder) :
    (red.upsertMapping placeholder original kind).Sound engine := by
  unfold Redactor.upsertMapping
  split
  next => exact sound
  next =>
    refine ⟨sound.salt, fun entry member => ?_, fun pair member => ?_,
      nodup_revInsert placeholder original sound.distinct⟩
    · rcases List.mem_append.mp member with before | new
      · exact sound.entries entry before
      · rw [List.mem_singleton.mp new]
        exact isPlaceholder
    · rcases mem_revInsert member with rfl | before
      · exact isPlaceholder
      · exact sound.rev pair before

theorem Redactor.Sound.record (sound : red.Sound engine) {kind : RedactionKind}
    {uses : List (Text × Text)} (all : ∀ use ∈ uses, IsPlaceholder engine red.salt use.1) :
    (red.record kind uses).Sound engine := by
  induction uses generalizing red with
  | nil => exact sound
  | cons use uses inductionHypothesis =>
      apply inductionHypothesis (sound.upsertMapping (all use List.mem_cons_self))
      intro other member
      rw [Redactor.salt_upsertMapping]
      exact all other (List.mem_cons_of_mem _ member)

theorem tag_mem_tags {mode : RedactMode} {terms : List Text} {pass : Pass}
    (member : pass ∈ passes engine mode terms) : pass.tag ∈ tags := by
  have builtin : ∀ pass ∈ basicPasses engine ++ [urlPass], pass.tag ∈ tags := by
    simp [basicPasses, urlPass, tags]
  have custom : ∀ pass ∈ termPasses terms, pass.tag ∈ tags := by
    intro pass inside
    obtain ⟨term, _, rfl⟩ := List.mem_map.mp inside
    simp [termPass, tags]
  cases mode with
  | none => contradiction
  | basic =>
      rcases List.mem_append.mp member with basic | term
      · exact builtin pass (List.mem_append_left _ basic)
      · exact custom pass term
  | strict =>
      rcases List.mem_append.mp member with strict | term
      · exact builtin pass strict
      · exact custom pass term

theorem Redactor.Sound.run (sound : red.Sound engine) {pass : Pass} (tagged : pass.tag ∈ tags)
    (content : Text) : (pass.run engine (content, red)).2.Sound engine := by
  rw [Pass.run_eq]
  refine sound.record fun use member => ?_
  obtain ⟨matched, _, rfl⟩ := List.mem_map.mp member
  exact isPlaceholder_placeholderFor tagged matched

theorem Redactor.Sound.foldl_run {list : List Pass} {state : Text × Redactor}
    (sound : state.2.Sound engine) (tagged : ∀ pass ∈ list, pass.tag ∈ tags) :
    (list.foldl (Pass.run engine) state).2.Sound engine := by
  induction list generalizing state with
  | nil => exact sound
  | cons pass list inductionHypothesis =>
      exact inductionHypothesis (sound.run (tagged pass List.mem_cons_self) state.1)
        fun other member => tagged other (List.mem_cons_of_mem _ member)

theorem Redactor.Sound.redact (sound : red.Sound engine) (content : Text) (mode : RedactMode)
    (extraTerms : List Text) : (red.redact engine content mode extraTerms).2.Sound engine := by
  rw [Redactor.redact_eq]
  exact sound.foldl_run fun pass member => tag_mem_tags member

theorem Redactor.Sound.addCustomTerm (sound : red.Sound engine) (term : Text) :
    (red.addCustomTerm term).Sound engine := by
  unfold Redactor.addCustomTerm
  split
  next => exact sound
  next =>
    split
    next => exact sound
    next => exact ⟨sound.salt, sound.entries, sound.rev, sound.distinct⟩

theorem mem_foldl_revInsert {entries : List RedactionEntry} {rev : List (Text × Text)}
    {pair : Text × Text}
    (member : pair ∈ entries.foldl
      (fun rev entry => revInsert rev entry.placeholder entry.original) rev) :
    pair ∈ rev ∨ ∃ entry ∈ entries, pair = (entry.placeholder, entry.original) := by
  induction entries generalizing rev with
  | nil => exact .inl member
  | cons entry entries inductionHypothesis =>
      rcases inductionHypothesis member with inserted | ⟨other, inside, equal⟩
      · rcases mem_revInsert inserted with equal | before
        · exact .inr ⟨entry, List.mem_cons_self, equal⟩
        · exact .inl before
      · exact .inr ⟨other, List.mem_cons_of_mem _ inside, equal⟩

theorem nodup_foldl_revInsert {entries : List RedactionEntry} {rev : List (Text × Text)}
    (distinct : (rev.map Prod.fst).Nodup) :
    ((entries.foldl (fun rev entry => revInsert rev entry.placeholder entry.original) rev).map
      Prod.fst).Nodup := by
  induction entries generalizing rev with
  | nil => exact distinct
  | cons entry entries inductionHypothesis =>
      exact inductionHypothesis (nodup_revInsert _ _ distinct)

theorem Redactor.Sound.fromState {state : RedactionState} {salt : Block 32}
    (decoded : decodeB64x32 state.saltB64 = some salt)
    (entries : ∀ entry ∈ state.entries, IsPlaceholder engine salt entry.placeholder)
    (restored : Redactor.fromState state = some red) : red.Sound engine := by
  rw [Redactor.fromState, decoded] at restored
  obtain rfl := Option.some.inj restored
  refine ⟨decoded, entries, fun pair member => ?_, nodup_foldl_revInsert List.nodup_nil⟩
  rcases mem_foldl_revInsert member with none | ⟨entry, inside, rfl⟩
  · contradiction
  · exact entries entry inside

/-- Every redactor a client holds is sound. -/
theorem Redactor.Reachable.sound (reachable : Redactor.Reachable engine red) :
    red.Sound engine := by
  induction reachable with
  | new saltB64 built =>
      cases decoded : decodeB64x32 saltB64 with
      | none =>
          have impossible := built
          rw [Redactor.fromState, RedactionState.new, decoded] at impossible
          contradiction
      | some salt =>
        exact .fromState decoded (fun entry member => absurd member List.not_mem_nil) built
  | addCustomTerm term _ inductionHypothesis => exact inductionHypothesis.addCustomTerm term
  | redact content mode extraTerms _ inductionHypothesis =>
      exact inductionHypothesis.redact content mode extraTerms
  | reload _ restored inductionHypothesis =>
      exact .fromState inductionHypothesis.salt inductionHypothesis.entries restored

end Soundness

/-! ## Lookups -/

theorem lookup_revInsert (rev : List (Text × Text)) {placeholder : Text} (original key : Text)
    (unknown : placeholder ∉ rev.map Prod.fst) :
    (revInsert rev placeholder original).lookup key =
      (rev.lookup key).or ([(placeholder, original)].lookup key) := by
  have filtered : rev.filter (·.1 ≠ placeholder) = rev := by
    rw [List.filter_eq_self]
    intro pair member
    simp only [decide_eq_true_eq]
    rintro rfl
    exact unknown (List.mem_map_of_mem member)
  rw [revInsert, filtered]
  by_cases same : key = placeholder
  · subst same
    have missing : rev.lookup key = none := by
      rw [List.lookup_eq_none_iff]
      intro pair member
      rw [bne_iff_ne]
      rintro rfl
      exact unknown (List.mem_map_of_mem member)
    simp [missing]
  · have differ : (key == placeholder) = false := by simpa using same
    simp [List.lookup_cons, differ]

theorem isSome_lookup_iff {rev : List (Text × Text)} {key : Text} :
    (rev.lookup key).isSome = true ↔ key ∈ rev.map Prod.fst := by
  induction rev with
  | nil => simp
  | cons pair rev inductionHypothesis =>
      by_cases same : key = pair.1
      · simp [same]
      · have differ : (key == pair.1) = false := by simpa using same
        rw [List.lookup_cons, differ, List.map_cons, List.mem_cons, inductionHypothesis]
        simp [same]

/-- A new mapping is looked up behind the old ones. -/
theorem Redactor.lookup_upsertMapping (red : Redactor) (placeholder original key : Text)
    (kind : RedactionKind) :
    (red.upsertMapping placeholder original kind).rev.lookup key =
      (red.rev.lookup key).or ([(placeholder, original)].lookup key) := by
  unfold Redactor.upsertMapping
  split
  next known =>
    by_cases same : key = placeholder
    · subst same
      obtain ⟨content, found⟩ := Option.isSome_iff_exists.mp (isSome_lookup_iff.mpr known)
      rw [found, Option.some_or]
    · have differ : (key == placeholder) = false := by simpa using same
      simp [List.lookup_cons, differ]
  next unknown => exact lookup_revInsert red.rev original key unknown

theorem lookup_append (front back : List (Text × Text)) (key : Text) :
    (front ++ back).lookup key = (front.lookup key).or (back.lookup key) := by
  induction front with
  | nil => rfl
  | cons pair front inductionHypothesis =>
      rw [List.cons_append, List.lookup_cons, List.lookup_cons]
      cases key == pair.1 with
      | true => rfl
      | false => exact inductionHypothesis

theorem Redactor.lookup_record (red : Redactor) (kind : RedactionKind)
    (uses : List (Text × Text)) (key : Text) :
    (red.record kind uses).rev.lookup key = (red.rev ++ uses).lookup key := by
  induction uses generalizing red with
  | nil => rw [List.append_nil, Redactor.record, List.foldl_nil]
  | cons use uses inductionHypothesis =>
      calc
        (red.record kind (use :: uses)).rev.lookup key =
            ((red.upsertMapping use.1 use.2 kind).rev ++ uses).lookup key := inductionHypothesis _
        _ = (red.rev ++ use :: uses).lookup key := by
          rw [lookup_append, red.lookup_upsertMapping, Option.or_assoc, ← lookup_append,
            ← lookup_append, List.singleton_append]

/-- The placeholders that passes put in, with the originals. -/
def usesOf (engine : Engine) (salt : Block 32) : List Pass → Text → List (Text × Text)
  | [], _ => []
  | pass :: rest, content =>
      pass.uses engine salt content ++ usesOf engine salt rest (pass.text engine salt content)

/-- The text that passes leave. -/
def textOf (engine : Engine) (salt : Block 32) (list : List Pass) (content : Text) : Text :=
  list.foldl (fun out pass => pass.text engine salt out) content

/-- A run of passes leaves a text and looks up its placeholders behind those
that were mapped. -/
theorem foldl_run (engine : Engine) (list : List Pass) (content : Text) (red : Redactor) :
    (list.foldl (Pass.run engine) (content, red)).1 = textOf engine red.salt list content ∧
      ∀ key, (list.foldl (Pass.run engine) (content, red)).2.rev.lookup key =
        (red.rev ++ usesOf engine red.salt list content).lookup key := by
  induction list generalizing content red with
  | nil => exact ⟨rfl, fun key => by rw [usesOf, List.append_nil, List.foldl_nil]⟩
  | cons pass list inductionHypothesis =>
      rw [List.foldl_cons, Pass.run_eq]
      obtain ⟨leaves, looks⟩ := inductionHypothesis (pass.text engine red.salt content)
        (red.record pass.kind (pass.uses engine red.salt content))
      rw [Redactor.salt_record] at leaves looks
      refine ⟨leaves, fun key => ?_⟩
      rw [looks key, lookup_append, red.lookup_record, ← lookup_append, List.append_assoc]
      rfl

end ZkLlmGateway.Client
