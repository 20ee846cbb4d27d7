import Mathlib.Algebra.BigOperators.Group.List.Basic
import Mathlib.Algebra.GroupWithZero.Nat
import Mathlib.Data.List.Induction
import Mathlib.Data.List.Nodup
import Mathlib.Data.List.Perm.Basic

/-!
# Tallies

A tally adds up the amounts that are credited to keys.  It has one entry for every
key that was credited, and the amounts added up from zero in the order of the credits
stand there.  Of the addition nothing is assumed, so it may round.
-/

namespace ZkLlmGateway.Ranking

/-- Add an amount to the entry of a key. -/
def credit {κ ν : Type} [DecidableEq κ] [Zero ν] [Add ν] (key : κ) (amount : ν) :
    List (κ × ν) → List (κ × ν)
  | [] => [(key, 0 + amount)]
  | (other, value) :: rest =>
      if other = key then (other, value + amount) :: rest
      else (other, value) :: credit key amount rest

/-- Credit amounts, one after the other. -/
def tally {κ ν : Type} [DecidableEq κ] [Zero ν] [Add ν] (entries : List (κ × ν)) : List (κ × ν) :=
  entries.foldl (fun totals entry => credit entry.1 entry.2 totals) []

/-- Amounts added up from zero, one after the other. -/
def addUp {ν : Type} [Zero ν] [Add ν] (amounts : List ν) : ν :=
  amounts.foldl (fun total amount => total + amount) 0

theorem addUp_append_singleton {ν : Type} [Zero ν] [Add ν] (amounts : List ν) (amount : ν) :
    addUp (amounts ++ [amount]) = addUp amounts + amount := by
  rw [addUp, List.foldl_append]
  rfl

/-- Where the addition is exact the amounts are summed. -/
theorem addUp_eq_sum {ν : Type} [AddMonoid ν] (amounts : List ν) : addUp amounts = amounts.sum :=
  List.sum_eq_foldl.symm

section Tally

variable {κ ν : Type} [DecidableEq κ] [Zero ν] [Add ν] {key other : κ} {amount value : ν}
  {totals entries : List (κ × ν)}

/-- What was credited to a key, added up. -/
def total (entries : List (κ × ν)) (key : κ) : ν :=
  addUp ((entries.filter fun entry => entry.1 = key).map Prod.snd)

theorem total_append_singleton (entries : List (κ × ν)) (entry : κ × ν) (key : κ) :
    total (entries ++ [entry]) key =
      if entry.1 = key then total entries key + entry.2 else total entries key := by
  rw [total, List.filter_append, List.map_append]
  by_cases isKey : entry.1 = key
  · rw [if_pos isKey, List.filter_singleton, decide_eq_true isKey]
    exact addUp_append_singleton _ entry.2
  · rw [if_neg isKey, List.filter_singleton, decide_eq_false isKey]
    exact congrArg addUp (List.append_nil _)

theorem total_of_not_mem (absent : key ∉ entries.map Prod.fst) : total entries key = 0 := by
  have none : entries.filter (fun entry => entry.1 = key) = [] := by
    refine List.filter_eq_nil_iff.mpr fun entry member isKey => absent ?_
    rw [← of_decide_eq_true isKey]
    exact List.mem_map_of_mem member
  rw [total, none]
  rfl

/-- What a credit leaves. -/
theorem mem_credit_iff (nodup : (totals.map Prod.fst).Nodup) :
    (other, value) ∈ credit key amount totals ↔
      if other = key then
        (∃ before, (key, before) ∈ totals ∧ value = before + amount) ∨
          (key ∉ totals.map Prod.fst ∧ value = 0 + amount)
      else (other, value) ∈ totals := by
  induction totals with
  | nil =>
      rw [credit]
      split <;> simp_all
  | cons entry totals inductionHypothesis =>
      obtain ⟨first, before⟩ := entry
      rw [List.map_cons, List.nodup_cons] at nodup
      rw [credit]
      by_cases isFirst : first = key
      · subst isFirst
        have absent : ∀ value, (first, value) ∉ totals := by
          intro value member
          have known : first ∈ totals.map Prod.fst := List.mem_map_of_mem (f := Prod.fst) member
          exact nodup.1 known
        by_cases isKey : other = first
        · subst isKey
          simp [absent]
        · simp [isKey]
      · have further := inductionHypothesis nodup.2
        rw [if_neg isFirst, List.mem_cons, further]
        by_cases isKey : other = key
        · subst isKey
          simp [Ne.symm isFirst]
        · simp [isKey]

theorem keys_credit : (credit key amount totals).map Prod.fst =
    if key ∈ totals.map Prod.fst then totals.map Prod.fst else totals.map Prod.fst ++ [key] := by
  induction totals with
  | nil => rfl
  | cons entry totals inductionHypothesis =>
      obtain ⟨first, before⟩ := entry
      rw [credit]
      by_cases isFirst : first = key
      · simp [isFirst]
      · rw [if_neg isFirst, List.map_cons, inductionHypothesis]
        by_cases inside : key ∈ totals.map Prod.fst <;> simp [inside, Ne.symm isFirst]

/-- Totals that account for what was credited. -/
structure Accounts (totals entries : List (κ × ν)) : Prop where
  nodup : (totals.map Prod.fst).Nodup
  mem : ∀ key value, (key, value) ∈ totals ↔
    key ∈ entries.map Prod.fst ∧ value = total entries key

theorem Accounts.key_iff (accounts : Accounts totals entries) :
    key ∈ totals.map Prod.fst ↔ key ∈ entries.map Prod.fst := by
  simp only [List.mem_map (f := Prod.fst) (l := totals), Prod.exists, accounts.mem]
  constructor
  · rintro ⟨_, _, ⟨member, -⟩, rfl⟩
    exact member
  · exact fun member => ⟨key, _, ⟨member, rfl⟩, rfl⟩

theorem Accounts.credit (accounts : Accounts totals entries) (entry : κ × ν) :
    Accounts (Ranking.credit entry.1 entry.2 totals) (entries ++ [entry]) := by
  constructor
  · rw [keys_credit]
    split
    next => exact accounts.nodup
    next absent =>
      exact accounts.nodup.append (List.nodup_singleton _) (List.disjoint_singleton.mpr absent)
  · intro key value
    rw [mem_credit_iff accounts.nodup, total_append_singleton, List.map_append, List.mem_append,
      accounts.key_iff]
    by_cases isKey : key = entry.1
    · subst isKey
      simp only [accounts.mem, if_pos, List.map_cons, List.map_nil, List.mem_singleton, or_true,
        true_and]
      by_cases known : entry.1 ∈ entries.map Prod.fst
      · simp [known]
      · simp [known, total_of_not_mem known]
    · simp [isKey, Ne.symm isKey, accounts.mem]

theorem tally_append_singleton (entries : List (κ × ν)) (entry : κ × ν) :
    tally (entries ++ [entry]) = credit entry.1 entry.2 (tally entries) := by
  rw [tally, List.foldl_append]
  rfl

theorem accounts_tally (entries : List (κ × ν)) : Accounts (tally entries) entries := by
  induction entries using List.reverseRecOn with
  | nil => exact ⟨List.nodup_nil, by simp [tally]⟩
  | append_singleton entries entry inductionHypothesis =>
      rw [tally_append_singleton]
      exact inductionHypothesis.credit entry

end Tally

/-! ## Exact amounts -/

section Exact

variable {κ ν : Type} [DecidableEq κ] [AddCommMonoid ν] {key : κ} {amount : ν}
  {totals : List (κ × ν)}

theorem sum_credit : ((credit key amount totals).map Prod.snd).sum =
    (totals.map Prod.snd).sum + amount := by
  induction totals with
  | nil => simp [credit]
  | cons entry totals inductionHypothesis =>
      obtain ⟨first, before⟩ := entry
      rw [credit]
      split
      · rw [List.map_cons, List.map_cons, List.sum_cons, List.sum_cons, add_right_comm]
      · rw [List.map_cons, List.map_cons, List.sum_cons, List.sum_cons, inductionHypothesis,
          add_assoc]

theorem sum_tally (entries : List (κ × ν)) :
    ((tally entries).map Prod.snd).sum = (entries.map Prod.snd).sum := by
  induction entries using List.reverseRecOn with
  | nil => rfl
  | append_singleton entries entry inductionHypothesis =>
      rw [tally_append_singleton, sum_credit, inductionHypothesis, List.map_append, List.sum_append]
      simp

end Exact

/-! ## Counting -/

section Counting

variable {κ : Type} [DecidableEq κ]

theorem total_ones (items : List κ) (key : κ) :
    total (items.map fun item => (item, 1)) key = items.countP fun item => item = key := by
  induction items using List.reverseRecOn with
  | nil => rfl
  | append_singleton items item inductionHypothesis =>
      rw [List.map_append, List.map_singleton, total_append_singleton, inductionHypothesis,
        List.countP_append, List.countP_singleton]
      by_cases isKey : item = key <;> simp [isKey]

end Counting

end ZkLlmGateway.Ranking
