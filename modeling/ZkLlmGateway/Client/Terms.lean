import ZkLlmGateway.Client.Hiding
import Mathlib.Data.List.Permutation

/-!
# Custom terms and their order

The custom terms are searched one after the other, each in what the passes
before it left.  An occurrence that is hidden in part when its term has its turn
is not found any more.  Where no occurrence is, in no order of the terms, every
order hides the same, and all of every occurrence.
-/

namespace ZkLlmGateway.Client

open ZkLlmGateway.Encoding ZkLlmGateway.Matching

/-! ## Terms that do not break each other -/

section Definitions

variable (engine : Engine) (salt : Block 32) (mode : RedactMode) (content : Text)
  (terms : List Text)

/-- What the built-in passes hide. -/
def goneBefore : Nat → Bool :=
  isBlank (blankAfter content (builtinPasses engine mode))

/-- Every order of the terms hides every occurrence of a term, and the same characters. -/
structure HidesTerms : Prop where
  occurrences : ∀ order : List Text, order.Perm terms →
    ∀ term ∈ visibleTerms terms, ∀ span ∈ (termPass term).spans content,
      ∀ position, Within span position →
        ¬Kept (redactedCells engine salt mode content order) position
  sameCharacters : ∀ order : List Text, order.Perm terms → ∀ position,
    Kept (redactedCells engine salt mode content order) position ↔
      Kept (redactedCells engine salt mode content terms) position

/-- In no order of the terms one is found across the edge of a placeholder. -/
def UnstraddledOrders : Prop :=
  ∀ order : List Text, order.Perm terms → UnstraddledTerms engine salt mode content order

instance : Decidable (UnstraddledOrders engine salt mode content terms) :=
  decidable_of_iff
    (∀ order ∈ terms.permutations', UnstraddledTerms engine salt mode content order)
    (forall_congr' fun _ => imp_congr_left List.mem_permutations')

/-- An occurrence of a term lies as a whole in what the built-in passes and the occurrences
of another term hide, or not at all. -/
def Unbroken : Prop :=
  ∀ term ∈ visibleTerms terms, ∀ span ∈ (termPass term).spans content,
    Intact (goneBefore engine mode content) span ∧
      ∀ other ∈ visibleTerms terms,
        Intact ((termPass other).gone content (goneBefore engine mode content)) span

instance : Decidable (Unbroken engine mode content terms) :=
  inferInstanceAs (Decidable (∀ term ∈ visibleTerms terms, ∀ span ∈ (termPass term).spans content,
    _ ∧ ∀ other ∈ visibleTerms terms, _))

/-- An occurrence that the built-in passes do not hide has a character that lies in no other
occurrence of a term, wherever a search begins. -/
def OwnCharacters : Prop :=
  ∀ term ∈ visibleTerms terms, ∀ span ∈ (termPass term).spans content,
    (∀ position, Within span position → goneBefore engine mode content position = true) ∨
      ∃ position, Within span position ∧ goneBefore engine mode content position = false ∧
        ∀ other ∈ visibleTerms terms, ∀ start, other <+: content.drop start → start ≤ position →
          position < start + other.length → other = term ∧ start = span.1

end Definitions

section Terms

variable {engine : Engine} {salt : Block 32} {mode : RedactMode} {content : Text}
  {terms : List Text} {cells : List (Cell Char (Option Nat))} {position : Nat}

/-- An occurrence is as long as its term, and spells it. -/
theorem of_mem_termPass_spans {term : Text} {span : Nat × Nat}
    (member : span ∈ (termPass term).spans content) :
    term <+: content.drop span.1 ∧ span.2 = span.1 + term.length := by
  obtain ⟨_, nonempty, _, length⟩ := of_mem_spans (find_le_length (termPass term).pattern) member
  rw [Nat.sub_zero, show (termPass term).pattern = literally term from rfl, find_literally]
    at length
  split at length
  next spelled => exact ⟨spelled, by omega⟩
  next => omega

theorem tracks_builtinCells (engine : Engine) (salt : Block 32) (mode : RedactMode)
    (content : Text) :
    Tracks (goneBefore engine mode content) content
      (builtinCells engine salt mode content) := by
  rw [goneBefore, ← viewFrom_builtinCells engine salt]
  exact tracks_view (masked_builtinCells engine salt mode content)

/-! ## What unbroken terms hide -/

/-- What is gone after the occurrences of some terms. -/
structure GoneAfter (engine : Engine) (mode : RedactMode) (content : Text) (earlier : List Text)
    (gone : Nat → Bool) : Prop where
  iff : ∀ position, gone position = true ↔
    goneBefore engine mode content position = true ∨
      Taken (termPasses earlier) content position

theorem gone_termPass_iff {term : Text} {gone : Nat → Bool} :
    (termPass term).gone content gone position = true ↔
      gone position = true ∨ ∃ span ∈ (termPass term).spans content, Within span position := by
  have notUrl : (termPass term).kind ≠ .url := by
    change RedactionKind.custom ≠ .url
    decide
  simp [Pass.gone, notUrl]

theorem taken_termPasses_iff :
    Taken (termPasses terms) content position ↔
      ∃ term ∈ visibleTerms terms, ∃ span ∈ (termPass term).spans content,
      Within span position := by
  simp only [Taken, mem_termPasses]
  constructor
  · rintro ⟨_, ⟨term, member, rfl⟩, taken⟩
    exact ⟨term, member, taken⟩
  · rintro ⟨term, member, taken⟩
    exact ⟨_, ⟨term, member, rfl⟩, taken⟩

/-- Occurrences that no single term breaks are not broken by several of them. -/
theorem GoneAfter.intact {earlier : List Text} {gone : Nat → Bool}
    (isGone : GoneAfter engine mode content earlier gone)
    (known : ∀ term ∈ visibleTerms earlier, term ∈ visibleTerms terms)
    (unbroken : Unbroken engine mode content terms) {term : Text}
    (member : term ∈ visibleTerms terms) {span : Nat × Nat}
    (inSpans : span ∈ (termPass term).spans content) : Intact gone span := by
  obtain ⟨intactBefore, intactAfter⟩ := unbroken term member span inSpans
  by_cases touched : ∃ position, Within span position ∧ gone position = true
  · refine .inr fun position within => ?_
    obtain ⟨other, withinOther, goneOther⟩ := touched
    rw [isGone.iff]
    rcases (isGone.iff other).mp goneOther with before | taken
    · rcases intactBefore with none | all
      · rw [none other withinOther] at before
        contradiction
      · exact .inl (all position within)
    · obtain ⟨earlierTerm, isEarlier, taken⟩ := taken_termPasses_iff.mp taken
      have goneByOther : (termPass earlierTerm).gone content (goneBefore engine mode content)
          other = true := gone_termPass_iff.mpr (.inr taken)
      rcases intactAfter earlierTerm (known earlierTerm isEarlier) with none | all
      · rw [none other withinOther] at goneByOther
        contradiction
      · refine (gone_termPass_iff.mp (all position within)).imp_right fun takenHere => ?_
        exact taken_termPasses_iff.mpr ⟨earlierTerm, isEarlier, takenHere⟩
  · refine .inl fun position within => ?_
    rw [← Bool.not_eq_true]
    exact fun isTrue => touched ⟨position, within, isTrue⟩

theorem kind_termPass_ne_url (term : Text) : (termPass term).kind ≠ .url := by
  change RedactionKind.custom ≠ .url
  decide

theorem tag_termPass (term : Text) : (termPass term).tag ∈ tags :=
  List.mem_of_getElem? (i := 6) rfl

/-- The passes of unbroken terms hide their occurrences. -/
theorem Tracks.hideTerms {gone : Nat → Bool} {earlier : List Text} (later : List Text)
    (tracks : Tracks gone content cells)
    (isGone : GoneAfter engine mode content earlier gone)
    (known : ∀ term ∈ visibleTerms (earlier ++ later), term ∈ visibleTerms terms)
    (unstraddled : Unstraddled engine salt (termPasses later) cells)
    (unbroken : Unbroken engine mode content terms) :
    ∃ final, Tracks final content (Client.hidden engine salt (termPasses later) cells) ∧
      GoneAfter engine mode content (earlier ++ later) final := by
  induction later generalizing earlier gone cells with
  | nil => exact ⟨gone, tracks, by rwa [List.append_nil]⟩
  | cons term later inductionHypothesis =>
      have shift : earlier ++ term :: later = (earlier ++ [term]) ++ later := by
        rw [List.append_assoc, List.singleton_append]
      rw [shift] at known ⊢
      cases isBlank : (trim term).isEmpty with
      | true =>
          have same : termPasses (earlier ++ [term]) = termPasses earlier := by
            rw [termPasses_append, termPasses_cons_of_blank isBlank]
            exact List.append_nil _
          rw [termPasses_cons_of_blank isBlank] at unstraddled ⊢
          exact inductionHypothesis tracks ⟨by rw [same]; exact isGone.iff⟩ known unstraddled
      | false =>
          have last : termPasses (earlier ++ [term]) = termPasses earlier ++ [termPass term] := by
            rw [termPasses_append, termPasses_cons_of_visible isBlank]
            rfl
          have isVisible : term ∈ visibleTerms terms :=
            known term (List.mem_filter.mpr ⟨by simp, by simp [isBlank]⟩)
          have knownEarlier : ∀ other ∈ visibleTerms earlier, other ∈ visibleTerms terms := by
            intro other member
            obtain ⟨inEarlier, visible⟩ := List.mem_filter.mp member
            exact known other (List.mem_filter.mpr ⟨by simp [inEarlier], visible⟩)
          rw [termPasses_cons_of_visible isBlank] at unstraddled ⊢
          have notUrl := kind_termPass_ne_url term
          have step : Tracks ((termPass term).gone content gone) content
              ((termPass term).hide engine salt cells) :=
            tracks.hide (tag_termPass term) notUrl (unstraddled.1 notUrl)
              fun span member => isGone.intact knownEarlier unbroken isVisible member
          refine inductionHypothesis step ⟨fun position => ?_⟩ known unstraddled.2
          rw [gone_termPass_iff, isGone.iff, last, taken_append, or_assoc]
          simp [Taken]

theorem mem_visibleTerms_perm {order : List Text} (same : order.Perm terms) {term : Text} :
    term ∈ visibleTerms order ↔ term ∈ visibleTerms terms :=
  (same.filter _).mem_iff

/-- **Unbroken terms**: an order of them hides what the built-in passes hide, and all
occurrences. -/
theorem kept_redactedCells_iff (redacts : mode ≠ .none)
    (unstraddled : UnstraddledOrders engine salt mode content terms)
    (unbroken : Unbroken engine mode content terms) {order : List Text}
    (same : order.Perm terms) :
    Kept (redactedCells engine salt mode content order) position ↔
      position < content.length ∧ goneBefore engine mode content position = false ∧
        ¬Taken (termPasses terms) content position := by
  have start : GoneAfter engine mode content [] (goneBefore engine mode content) :=
    ⟨fun position => by simp [Taken, termPasses]⟩
  obtain ⟨final, tracks, isGone⟩ := (tracks_builtinCells engine salt mode content).hideTerms
    order start (fun term member => (mem_visibleTerms_perm same).mp member)
    (unstraddled order same) unbroken
  have takenIff : Taken (termPasses order) content position ↔
      Taken (termPasses terms) content position := by
    simp only [taken_termPasses_iff, mem_visibleTerms_perm same]
  have goneIff := isGone.iff position
  rw [List.nil_append, takenIff] at goneIff
  rw [redactedCells_eq redacts, tracks.kept, ← Bool.not_eq_true (final position), goneIff, not_or,
    Bool.not_eq_true]

theorem Unbroken.hidesTerms (redacts : mode ≠ .none)
    (unstraddled : UnstraddledOrders engine salt mode content terms)
    (unbroken : Unbroken engine mode content terms) :
    HidesTerms engine salt mode content terms := by
  constructor
  · intro order same term member span inSpans position within kept
    have shown := (kept_redactedCells_iff redacts unstraddled unbroken same).mp kept
    exact shown.2.2 (taken_termPasses_iff.mpr ⟨term, member, span, inSpans, within⟩)
  · intro order same position
    rw [kept_redactedCells_iff redacts unstraddled unbroken same,
      kept_redactedCells_iff redacts unstraddled unbroken (List.Perm.refl terms)]

/-! ## Broken terms show -/

/-- A shown character stays shown when every occurrence that could take it is broken. -/
theorem kept_hidden_terms (masked : Masked '<' '>' isMaskChar content 0 cells)
    (unstraddled : Unstraddled engine salt (termPasses terms) cells) (kept : Kept cells position)
    (broken : ∀ term ∈ visibleTerms terms, ∀ start, term <+: content.drop start →
      start ≤ position → position < start + term.length →
      ∃ other, start ≤ other ∧ other < start + term.length ∧ ¬Kept cells other) :
    Kept (hidden engine salt (termPasses terms) cells) position := by
  have isTerm : ∀ pass ∈ termPasses terms, ∃ term ∈ visibleTerms terms, termPass term = pass :=
    fun pass => mem_termPasses.mp
  generalize termPasses terms = list at *
  induction list generalizing cells with
  | nil => exact kept
  | cons pass list inductionHypothesis =>
      obtain ⟨term, isVisible, rfl⟩ := isTerm pass List.mem_cons_self
      have unmixed := unstraddled.1 (kind_termPass_ne_url term)
      have stays : Kept ((termPass term).hide engine salt cells) position := by
        apply masked.kept_conceal (find_le_length _) unmixed kept
        intro matched isHit start spelled begins ends
        have isWord := items_of_mem_hits isHit
        rw [← length_items, isWord] at ends ⊢
        rw [isWord] at spelled
        exact broken term isVisible start spelled begins ends
      refine inductionHypothesis (masked_hide (tag_termPass term) masked) stays
        (fun other member start spelled begins ends => ?_) unstraddled.2
        fun other member => isTerm other (List.mem_cons_of_mem _ member)
      obtain ⟨gap, first, last, gone⟩ := broken other member start spelled begins ends
      exact ⟨gap, first, last, fun keptAfter => gone keptAfter.of_conceal⟩

/-- What an occurrence with a character of its own shows once it is broken. -/
theorem kept_of_broken (engine : Engine) (salt : Block 32)
    (masked : Masked '<' '>' isMaskChar content 0 cells)
    (unstraddled : Unstraddled engine salt (termPasses terms) cells) {term : Text}
    {span : Nat × Nat} (inSpans : span ∈ (termPass term).spans content) {own gap : Nat}
    (isOwn : ∀ other ∈ visibleTerms terms, ∀ start, other <+: content.drop start → start ≤ own →
      own < start + other.length → other = term ∧ start = span.1)
    (kept : Kept cells own) (withinGap : Within span gap) (gone : ¬Kept cells gap) :
    Kept (hidden engine salt (termPasses terms) cells) own := by
  refine kept_hidden_terms masked unstraddled kept fun other member start spelled begins ends => ?_
  obtain ⟨rfl, rfl⟩ := isOwn other member start spelled begins ends
  refine ⟨gap, withinGap.1, ?_, gone⟩
  rw [← (of_mem_termPass_spans inSpans).2]
  exact withinGap.2

/-- Where occurrences have characters of their own, hidden terms are unbroken by the built-in
passes. -/
theorem HidesTerms.intact_before (redacts : mode ≠ .none)
    (unstraddled : UnstraddledOrders engine salt mode content terms)
    (own : OwnCharacters engine mode content terms)
    (hides : HidesTerms engine salt mode content terms) {term : Text}
    (member : term ∈ visibleTerms terms) {span : Nat × Nat}
    (inSpans : span ∈ (termPass term).spans content) :
    Intact (goneBefore engine mode content) span := by
  have tracks := tracks_builtinCells engine salt mode content
  rcases own term member span inSpans with all | ⟨position, within, shown, isOwn⟩
  · exact .inr all
  · refine .inl fun gap withinGap => ?_
    by_contra gone
    have kept : Kept (builtinCells engine salt mode content) position :=
      (tracks.kept position).mpr ⟨lt_of_within inSpans within, shown⟩
    have final := kept_of_broken engine salt tracks.masked
      (unstraddled terms (List.Perm.refl terms)) inSpans isOwn kept withinGap
      fun keptGap => gone ((tracks.kept gap).mp keptGap).2
    rw [← redactedCells_eq redacts] at final
    exact hides.occurrences terms (List.Perm.refl terms) term member span inSpans position within
      final

/-- ... nor by each other. -/
theorem HidesTerms.unbroken (redacts : mode ≠ .none)
    (unstraddled : UnstraddledOrders engine salt mode content terms)
    (own : OwnCharacters engine mode content terms)
    (hides : HidesTerms engine salt mode content terms) :
    Unbroken engine mode content terms := by
  intro term member span inSpans
  refine ⟨hides.intact_before redacts unstraddled own member inSpans, fun other isOther => ?_⟩
  rcases own term member span inSpans with all | ⟨position, within, shown, isOwn⟩
  · exact .inr fun position within => gone_termPass_iff.mpr (.inl (all position within))
  · by_cases taken : ∃ otherSpan ∈ (termPass other).spans content, Within otherSpan position
    · -- Only an occurrence of the same term at the same place takes the own character.
      obtain ⟨otherSpan, inOther, withinOther⟩ := taken
      obtain ⟨spelled, ends⟩ := of_mem_termPass_spans inOther
      have sameTerm := isOwn other isOther otherSpan.1 spelled withinOther.1 (ends ▸ withinOther.2)
      refine .inr fun place withinSpan => gone_termPass_iff.mpr (.inr ⟨otherSpan, inOther, ?_⟩)
      refine ⟨sameTerm.2 ▸ withinSpan.1, ?_⟩
      rw [ends, sameTerm.1, sameTerm.2, ← (of_mem_termPass_spans inSpans).2]
      exact withinSpan.2
    · refine .inl fun gap withinGap => ?_
      by_contra gone
      rw [Bool.not_eq_false] at gone
      -- With the other term first, the occurrence is broken when its turn comes.
      have inTerms : other ∈ terms := (List.mem_filter.mp isOther).1
      have same : (other :: terms.erase other).Perm terms := (List.perm_cons_erase inTerms).symm
      have notBlank : (trim other).isEmpty = false := by
        rw [← Bool.not_eq_true']
        exact (List.mem_filter.mp isOther).2
      have first := termPasses_cons_of_visible notBlank (terms.erase other)
      have notUrl := kind_termPass_ne_url other
      have unmixed := unstraddled _ same
      rw [UnstraddledTerms, first] at unmixed
      have tracks := tracks_builtinCells engine salt mode content
      have step : Tracks ((termPass other).gone content (goneBefore engine mode content))
          content ((termPass other).hide engine salt (builtinCells engine salt mode content)) :=
        tracks.hide (tag_termPass other) notUrl (unmixed.1 notUrl) fun otherSpan inOther =>
          hides.intact_before redacts unstraddled own isOther inOther
      have shownAfter : (termPass other).gone content (goneBefore engine mode content)
          position = false := by
        rw [← Bool.not_eq_true, gone_termPass_iff, not_or, Bool.not_eq_true]
        exact ⟨shown, taken⟩
      have final := kept_of_broken engine salt step.masked unmixed.2 inSpans
        (fun later isLater => isOwn later (List.mem_filter.mpr
          ⟨List.mem_of_mem_erase (List.mem_filter.mp isLater).1, (List.mem_filter.mp isLater).2⟩))
        ((step.kept position).mpr ⟨lt_of_within inSpans within, shownAfter⟩) withinGap
        fun keptGap => by
          rw [((step.kept gap).mp keptGap).2] at gone
          contradiction
      apply hides.occurrences _ same term member span inSpans position within
      rw [redactedCells_eq redacts, first]
      exact final

/-- **Custom terms hide all their occurrences in every order**, and every order hides the same,
when no occurrence is broken by a match of a built-in pattern or of another term; where every
occurrence has a character of its own, only then.  Terms may hold brackets, as long as none is
found across the edge of a placeholder. -/
theorem hidesTerms_of_unbroken (redacts : mode ≠ .none) :
    (∀ (red : Redactor) (extraTerms : List Text), red.salt = salt →
      items (redactedCells engine salt mode content (red.state.customTerms ++ extraTerms)) =
        (red.redact engine content mode extraTerms).1) ∧
      (UnstraddledOrders engine salt mode content terms →
        (Unbroken engine mode content terms → HidesTerms engine salt mode content terms) ∧
          (OwnCharacters engine mode content terms →
            HidesTerms engine salt mode content terms → Unbroken engine mode content terms)) ∧
      (FencedTerms terms → UnstraddledOrders engine salt mode content terms) := by
  refine ⟨fun red extraTerms same => ?_, fun unstraddled =>
    ⟨fun unbroken => unbroken.hidesTerms redacts unstraddled,
      fun own hides => hides.unbroken redacts unstraddled own⟩,
    fun fenced order same => (fenced.perm same).unstraddledTerms⟩
  rw [← same]
  exact items_redactedCells red extraTerms

end Terms

/-- A name and a term with a bracket inside that share no character. -/
theorem hidesTerms_of_unbroken_names : HidesTerms (.ofTable []) (Block.replicate 32 0) .basic
    (text "Bob wrote x<y") [text "x<y", text "Bob"] :=
  ((hidesTerms_of_unbroken (by decide)).2.1 (by decide +kernel)).1 (by decide +kernel)

/-- A first name that is searched before the full name. -/
theorem not_hidesTerms_fullName : ¬∀ (engine : Engine) (salt : Block 32) (mode : RedactMode)
    (content : Text) (terms : List Text), mode ≠ .none →
    (∀ term ∈ terms, (trim term).isEmpty = false) →
    HidesTerms engine salt mode content terms := by
  intro claim
  have hides := claim (.ofTable []) (Block.replicate 32 0) .basic (text "Ann Lee")
    [text "Ann", text "Ann Lee"] (by decide) (by decide +kernel)
  refine hides.occurrences _ (List.Perm.refl _) (text "Ann Lee") (by decide +kernel) (0, 7)
    (by decide +kernel) 4 (by decide) (by decide +kernel)

end ZkLlmGateway.Client
