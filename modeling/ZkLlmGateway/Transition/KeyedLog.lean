import Mathlib.Data.List.Nodup

/-!
# Logs with keys

A log is read by keys, and the last entry of a key counts.  Where an entry is
appended only under a key that the log does not have, a later log has the earlier
one in front and says the same of all of its keys.
-/

namespace ZkLlmGateway.Transition

universe u v

section KeyedLog

variable {ε : Type u} {κ : Type v} [DecidableEq κ] (key : ε → κ)

/-- The last entry of a key. -/
def lastEntry (log : List ε) (wanted : κ) : Option ε :=
  (log.filter fun entry => key entry = wanted).getLast?

/-- Append an entry, unless the log has one of its key. -/
def appendNew (log : List ε) (entry : ε) : List ε :=
  if key entry ∈ log.map key then log else log ++ [entry]

omit [DecidableEq κ] in
/-- A later log: entries were appended under different keys that were not there. -/
def ExtendsLog (log later : List ε) : Prop :=
  ∃ added, later = log ++ added ∧ (added.map key).Nodup ∧
    ∀ entry ∈ added, key entry ∉ log.map key

variable {key} {log later latest entries : List ε} {entry : ε} {wanted : κ}

theorem lastEntry_concat (log : List ε) (entry : ε) (wanted : κ) :
    lastEntry key (log ++ [entry]) wanted =
      if key entry = wanted then some entry else lastEntry key log wanted := by
  unfold lastEntry
  split
  next isKey => simp [List.filter_append, isKey]
  next other => simp [List.filter_append, other]

theorem lastEntry_eq_none_iff : lastEntry key log wanted = none ↔ wanted ∉ log.map key := by
  rw [lastEntry, List.getLast?_eq_none_iff, List.filter_eq_nil_iff, List.mem_map]
  constructor
  · rintro different ⟨entry, member, isKey⟩
    exact different entry member (decide_eq_true isKey)
  · intro absent entry member isKey
    exact absent ⟨entry, member, of_decide_eq_true isKey⟩

omit [DecidableEq κ] in
theorem ExtendsLog.refl (log : List ε) : ExtendsLog key log log :=
  ⟨[], (List.append_nil log).symm, List.nodup_nil, fun _ member => absurd member List.not_mem_nil⟩

omit [DecidableEq κ] in
theorem ExtendsLog.trans (first : ExtendsLog key log later) (next : ExtendsLog key later latest) :
    ExtendsLog key log latest := by
  obtain ⟨added, rfl, distinct, isNew⟩ := first
  obtain ⟨more, rfl, distinctMore, isNewMore⟩ := next
  have apart : ∀ entry ∈ more, key entry ∉ log.map key ∧ key entry ∉ added.map key := by
    intro entry member
    have absent := isNewMore entry member
    rwa [List.map_append, List.mem_append, not_or] at absent
  refine ⟨added ++ more, List.append_assoc log added more, ?_, ?_⟩
  · rw [List.map_append, List.nodup_append]
    refine ⟨distinct, distinctMore, ?_⟩
    rintro old inAdded new inMore rfl
    obtain ⟨entry, member, rfl⟩ := List.mem_map.mp inMore
    exact (apart entry member).2 inAdded
  · intro entry member
    rcases List.mem_append.mp member with inAdded | inMore
    · exact isNew entry inAdded
    · exact (apart entry inMore).1

omit [DecidableEq κ] in
theorem ExtendsLog.isPrefix (isLater : ExtendsLog key log later) : log <+: later := by
  obtain ⟨added, rfl, _, _⟩ := isLater
  exact List.prefix_append log added

omit [DecidableEq κ] in
theorem ExtendsLog.of_not_mem (isNew : key entry ∉ log.map key) :
    ExtendsLog key log (log ++ [entry]) := by
  refine ⟨[entry], rfl, List.nodup_singleton _, ?_⟩
  intro other member
  rw [List.mem_singleton.mp member]
  exact isNew

theorem extendsLog_appendNew (log : List ε) (entry : ε) :
    ExtendsLog key log (appendNew key log entry) := by
  unfold appendNew
  split
  next => exact .refl log
  next isNew => exact .of_not_mem isNew

theorem extendsLog_foldl (log entries : List ε) :
    ExtendsLog key log (entries.foldl (appendNew key) log) := by
  induction entries generalizing log with
  | nil => exact .refl log
  | cons entry entries inductionHypothesis =>
      exact (extendsLog_appendNew log entry).trans (inductionHypothesis _)

theorem mem_appendNew (log : List ε) (entry : ε) :
    key entry ∈ (appendNew key log entry).map key := by
  unfold appendNew
  split
  next known => exact known
  next => simp

/-- Every key of the entries is in the log afterwards. -/
theorem mem_foldl_appendNew (log : List ε) :
    ∀ entry ∈ entries, key entry ∈ (entries.foldl (appendNew key) log).map key := by
  induction entries generalizing log with
  | nil => exact fun _ member => absurd member List.not_mem_nil
  | cons first entries inductionHypothesis =>
      intro entry member
      rcases List.mem_cons.mp member with rfl | later
      · have isLater : ExtendsLog key (appendNew key log entry)
            (entries.foldl (appendNew key) (appendNew key log entry)) := extendsLog_foldl _ _
        exact (isLater.isPrefix.map key).subset (mem_appendNew log entry)
      · exact inductionHypothesis _ entry later

/-- What is in the log afterwards was in it or among the entries. -/
theorem mem_of_mem_foldl_appendNew (member : entry ∈ entries.foldl (appendNew key) log) :
    entry ∈ log ∨ entry ∈ entries := by
  induction entries generalizing log with
  | nil => exact .inl member
  | cons first entries inductionHypothesis =>
      rcases inductionHypothesis member with before | later
      · unfold appendNew at before
        split at before
        next => exact .inl before
        next =>
          rcases List.mem_append.mp before with old | new
          · exact .inl old
          · exact .inr (List.mem_cons.mpr (.inl (List.mem_singleton.mp new)))
      · exact .inr (List.mem_cons_of_mem first later)

omit [DecidableEq κ] in
/-- A log without repeated keys is extended to one without repeated keys. -/
theorem ExtendsLog.nodup_iff (isLater : ExtendsLog key log later) :
    (later.map key).Nodup ↔ (log.map key).Nodup := by
  obtain ⟨added, rfl, distinct, isNew⟩ := isLater
  rw [List.map_append, List.nodup_append]
  constructor
  · exact And.left
  · intro distinctLog
    refine ⟨distinctLog, distinct, ?_⟩
    rintro old inLog new inAdded rfl
    obtain ⟨entry, member, rfl⟩ := List.mem_map.mp inAdded
    exact isNew entry member inLog

theorem appendNew_eq_self_iff : appendNew key log entry = log ↔ key entry ∈ log.map key := by
  unfold appendNew
  split
  next known => exact ⟨fun _ => known, fun _ => rfl⟩
  next isNew => simp [isNew]

/-- The entries leave a log as it was exactly when it has all their keys. -/
theorem foldl_appendNew_eq_self_iff :
    entries.foldl (appendNew key) log = log ↔ ∀ entry ∈ entries, key entry ∈ log.map key := by
  induction entries with
  | nil => simp
  | cons entry entries inductionHypothesis =>
      rw [List.foldl_cons, List.forall_mem_cons]
      by_cases known : key entry ∈ log.map key
      · rw [appendNew_eq_self_iff.mpr known, inductionHypothesis]
        exact ⟨fun all => ⟨known, all⟩, And.right⟩
      · constructor
        · intro same
          have isLater : ExtendsLog key (appendNew key log entry)
              (entries.foldl (appendNew key) (appendNew key log entry)) :=
            extendsLog_foldl _ _
          have length := isLater.isPrefix.length_le
          rw [same, appendNew, if_neg known, List.length_append, List.length_singleton] at length
          omega
        · exact fun all => absurd all.1 known

end KeyedLog

end ZkLlmGateway.Transition
