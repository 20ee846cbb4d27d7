import ZkLlmGateway.Ranking.Tally
import Mathlib.Algebra.BigOperators.Group.List.Lemmas
import Mathlib.Algebra.GroupWithZero.Nat

/-!
# Inverted indices

An inverted index lists for every term the documents that have it, with how often.
It is kept up by posting the tally of every document that is added.  Documents are
scored by what their terms credit them with.
-/

namespace ZkLlmGateway.Ranking

/-- Append a posting of document `idx` to the list of every term that was counted. -/
def post {τ ν : Type} [DecidableEq τ] (idx : Nat) (inverted : τ → List (Nat × ν))
    (freqs : List (τ × ν)) : τ → List (Nat × ν) :=
  freqs.foldl (fun inverted entry =>
    Function.update inverted entry.1 (inverted entry.1 ++ [(idx, entry.2)])) inverted

/-- How often a term is among tokens. -/
def frequency {τ : Type} [DecidableEq τ] (tokens : List τ) (term : τ) : Nat :=
  tokens.countP fun token => token = term

/-- The documents that have a term, in order, with how often they have it. -/
def occurrences {τ : Type} [DecidableEq τ] (contents : List (List τ)) (term : τ) :
    List (Nat × Nat) :=
  contents.zipIdx.filterMap fun (tokens, idx) =>
    if term ∈ tokens then some (idx, frequency tokens term) else none

section Posting

variable {τ ν : Type} [DecidableEq τ] {idx freq : Nat} {inverted : τ → List (Nat × ν)}
  {freqs : List (τ × ν)} {term : τ} {contents : List (List τ)} {tokens : List τ}

theorem post_apply (idx : Nat) (inverted : τ → List (Nat × ν)) (freqs : List (τ × ν)) (term : τ) :
    post idx inverted freqs term =
      inverted term ++ (freqs.filter fun entry => entry.1 = term).map fun entry =>
        (idx, entry.2) := by
  induction freqs generalizing inverted with
  | nil => exact (List.append_nil _).symm
  | cons entry freqs inductionHypothesis =>
      rw [post, List.foldl_cons, ← post, inductionHypothesis, List.filter_cons]
      by_cases isTerm : entry.1 = term
      · subst isTerm
        simp
      · simp [isTerm, Function.update_of_ne (Ne.symm isTerm)]

theorem filter_key_of_not_mem (absent : term ∉ freqs.map Prod.fst) :
    freqs.filter (fun entry => entry.1 = term) = [] := by
  refine List.filter_eq_nil_iff.mpr fun entry member isTerm => absent ?_
  rw [← of_decide_eq_true isTerm]
  exact List.mem_map_of_mem member

/-- An entry stands alone under its key. -/
theorem filter_key (nodup : (freqs.map Prod.fst).Nodup) {value : ν}
    (member : (term, value) ∈ freqs) :
    freqs.filter (fun entry => entry.1 = term) = [(term, value)] := by
  induction freqs with
  | nil => contradiction
  | cons entry freqs inductionHypothesis =>
      rw [List.map_cons, List.nodup_cons] at nodup
      rcases List.mem_cons.mp member with rfl | later
      · rw [List.filter_cons, filter_key_of_not_mem nodup.1]
        simp
      · have known : term ∈ freqs.map Prod.fst := List.mem_map_of_mem (f := Prod.fst) later
        have differs : entry.1 ≠ term := by
          rintro rfl
          exact nodup.1 known
        rw [List.filter_cons, if_neg (by simpa using differs), inductionHypothesis nodup.2 later]

theorem occurrences_append_singleton (contents : List (List τ)) (tokens : List τ) (term : τ) :
    occurrences (contents ++ [tokens]) term = occurrences contents term ++
      if term ∈ tokens then [(contents.length, frequency tokens term)] else [] := by
  rw [occurrences, List.zipIdx_append, List.filterMap_append, ← occurrences]
  by_cases inside : term ∈ tokens <;> simp [inside]

/-- **Posting the counts of a document** keeps the lists those of the occurrences. -/
theorem post_occurrences (contents : List (List τ)) (tokens : List τ) :
    post contents.length (occurrences contents) (tally (tokens.map fun token => (token, 1))) =
      occurrences (contents ++ [tokens]) := by
  have accounts := accounts_tally (tokens.map fun token => (token, 1))
  have keys : (tokens.map fun token => (token, 1)).map Prod.fst = tokens := by
    rw [List.map_map]
    exact List.map_id tokens
  funext term
  rw [post_apply, occurrences_append_singleton]
  by_cases inside : term ∈ tokens
  · have counted : (term, frequency tokens term) ∈ tally (tokens.map fun token => (token, 1)) := by
      rw [accounts.mem, keys, total_ones]
      exact ⟨inside, rfl⟩
    rw [filter_key accounts.nodup counted, if_pos inside]
    rfl
  · rw [filter_key_of_not_mem, if_neg inside]
    · rfl
    · rwa [accounts.key_iff, keys]

theorem mem_occurrences_iff : (idx, freq) ∈ occurrences contents term ↔
    ∃ tokens, contents[idx]? = some tokens ∧ term ∈ tokens ∧ freq = frequency tokens term := by
  simp only [occurrences, List.mem_filterMap, Prod.exists, List.mem_zipIdx_iff_getElem?]
  constructor
  · rintro ⟨tokens, i, isAt, found⟩
    split at found
    next inside =>
      rw [Option.some.injEq, Prod.mk.injEq] at found
      obtain ⟨rfl, rfl⟩ := found
      exact ⟨tokens, isAt, inside, rfl⟩
    next => contradiction
  · rintro ⟨tokens, isAt, inside, rfl⟩
    exact ⟨tokens, idx, isAt, if_pos inside⟩

/-- Every document stands in a list once, in order. -/
theorem pairwise_occurrences (contents : List (List τ)) (term : τ) :
    ((occurrences contents term).map Prod.fst).Pairwise (· < ·) := by
  induction contents using List.reverseRecOn with
  | nil => exact List.Pairwise.nil
  | append_singleton contents tokens inductionHypothesis =>
      rw [occurrences_append_singleton, List.map_append, List.pairwise_append]
      refine ⟨inductionHypothesis, by split <;> simp, ?_⟩
      intro earlier isEarlier last isLast
      obtain ⟨⟨_, freq⟩, member, rfl⟩ := List.mem_map.mp isEarlier
      obtain ⟨_, isAt, _⟩ := mem_occurrences_iff.mp member
      obtain ⟨before, _⟩ := List.getElem?_eq_some_iff.mp isAt
      split at isLast
      · rwa [List.mem_singleton.mp isLast]
      · contradiction

theorem length_occurrences (contents : List (List τ)) (term : τ) :
    (occurrences contents term).length = contents.countP fun tokens => term ∈ tokens := by
  induction contents using List.reverseRecOn with
  | nil => rfl
  | append_singleton contents tokens inductionHypothesis =>
      rw [occurrences_append_singleton, List.length_append, inductionHypothesis,
        List.countP_append, List.countP_singleton]
      by_cases inside : term ∈ tokens <;> simp [inside]

end Posting

/-! ## Scores -/

section Scores

variable {τ F : Type} [DecidableEq τ] {idx : Nat} {contents : List (List τ)} {tokens : List τ}

/-- What the terms credit the admitted documents with. -/
def credits (contents : List (List τ)) (admits : Nat → Bool) (weight : τ → Nat × Nat → F)
    (terms : List τ) : List (Nat × F) :=
  terms.flatMap fun term => ((occurrences contents term).filter fun posting => admits posting.1).map
    fun posting => (posting.1, weight term posting)

/-- The score of a document: the weights of the terms it has, added up. -/
def score [Zero F] [Add F] (weight : τ → Nat × Nat → F) (terms : List τ) (idx : Nat)
    (tokens : List τ) : F :=
  addUp ((terms.filter fun term => term ∈ tokens).map fun term =>
    weight term (idx, frequency tokens term))

theorem mem_keys_credits_iff {admits : Nat → Bool} {weight : τ → Nat × Nat → F} {terms : List τ} :
    idx ∈ (credits contents admits weight terms).map Prod.fst ↔
      admits idx = true ∧
        ∃ tokens, contents[idx]? = some tokens ∧ ∃ term ∈ terms, term ∈ tokens := by
  simp only [credits, List.mem_map, List.mem_flatMap, List.mem_filter, Prod.exists]
  constructor
  · rintro ⟨_, _, ⟨term, inTerms, ⟨i, freq, ⟨member, isAdmitted⟩, equal⟩⟩, rfl⟩
    obtain ⟨tokens, isAt, inside, _⟩ := mem_occurrences_iff.mp member
    rw [Prod.mk.injEq] at equal
    obtain ⟨rfl, _⟩ := equal
    exact ⟨isAdmitted, tokens, isAt, term, inTerms, inside⟩
  · rintro ⟨isAdmitted, tokens, isAt, term, inTerms, inside⟩
    exact ⟨_, _, ⟨term, inTerms, idx, frequency tokens term,
      ⟨mem_occurrences_iff.mpr ⟨tokens, isAt, inside, rfl⟩, isAdmitted⟩, rfl⟩, rfl⟩

/-- A term credits a document that has it once, and no other. -/
theorem credits_of_term {admits : Nat → Bool} (isAdmitted : admits idx = true)
    (isAt : contents[idx]? = some tokens) (weight : τ → Nat × Nat → F) (term : τ) :
    ((((occurrences contents term).filter fun posting => admits posting.1).map fun posting =>
        (posting.1, weight term posting)).filter fun entry => entry.1 = idx).map Prod.snd =
      if term ∈ tokens then [weight term (idx, frequency tokens term)] else [] := by
  have swap : ((((occurrences contents term).filter fun posting => admits posting.1).map
      fun posting => (posting.1, weight term posting)).filter fun entry => entry.1 = idx) =
        ((occurrences contents term).filter fun posting => posting.1 = idx).map fun posting =>
          (posting.1, weight term posting) := by
    rw [List.filter_map, List.filter_filter]
    refine congrArg _ (List.filter_congr fun posting _ => ?_)
    by_cases isIdx : posting.1 = idx
    · simp [isIdx, isAdmitted]
    · simp [isIdx]
  have nodup : ((occurrences contents term).map Prod.fst).Nodup :=
    (pairwise_occurrences contents term).imp Nat.ne_of_lt
  rw [swap]
  split
  next inside =>
    rw [filter_key nodup (mem_occurrences_iff.mpr ⟨tokens, isAt, inside, rfl⟩)]
    rfl
  next outside =>
    rw [filter_key_of_not_mem]
    · rfl
    · intro inKeys
      obtain ⟨⟨_, freq⟩, member, rfl⟩ := List.mem_map.mp inKeys
      obtain ⟨others, isOther, inside, _⟩ := mem_occurrences_iff.mp member
      rw [isAt] at isOther
      exact outside (Option.some.inj isOther ▸ inside)

/-- **What a document is credited with is its score.** -/
theorem total_credits [Zero F] [Add F] {admits : Nat → Bool} (isAdmitted : admits idx = true)
    (isAt : contents[idx]? = some tokens) (weight : τ → Nat × Nat → F) (terms : List τ) :
    total (credits contents admits weight terms) idx = score weight terms idx tokens := by
  rw [total, score]
  apply congrArg addUp
  induction terms with
  | nil => rfl
  | cons term terms inductionHypothesis =>
      rw [credits, List.flatMap_cons, ← credits, List.filter_append, List.map_append,
        inductionHypothesis, credits_of_term isAdmitted isAt, List.filter_cons]
      by_cases inside : term ∈ tokens <;> simp [inside]

end Scores

end ZkLlmGateway.Ranking
