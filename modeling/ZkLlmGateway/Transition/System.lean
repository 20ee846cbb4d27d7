import Mathlib.Logic.Basic
import Mathlib.Data.List.Induction

/-!
# Guarded transition systems

A system is an executable guarded step: `step state event` is `some next` when
the event is enabled and `none` otherwise.  Runs are restricted by an `allowed`
predicate on steps, so that one model serves every side condition a property
puts on a schedule (a clock that never steps back, a store that never faults).
-/

namespace ZkLlmGateway.Transition

universe u v

/-- A set of initial states and a guarded step function. -/
structure System (σ : Type u) (ε : Type v) where
  init : σ → Prop
  step : σ → ε → Option σ

namespace System

variable {σ : Type u} {ε : Type v}

/-- Replay a list of events; `none` when one of them is not enabled. -/
def run (system : System σ ε) : σ → List ε → Option σ
  | state, [] => some state
  | state, event :: rest => (system.step state event).bind fun next => system.run next rest

/-- States reached from an initial state by steps that `allowed` admits. -/
inductive Reachable (system : System σ ε) (allowed : σ → ε → Prop) : σ → Prop
  | start {state : σ} : system.init state → Reachable system allowed state
  | next {state target : σ} {event : ε} :
      Reachable system allowed state → allowed state event →
      system.step state event = some target → Reachable system allowed target

/-- An invariant of the initial states that every allowed step preserves holds
in every reachable state. -/
theorem Reachable.invariant {system : System σ ε} {allowed : σ → ε → Prop}
    {holds : σ → Prop} (initial : ∀ state, system.init state → holds state)
    (preserved : ∀ state event target, holds state → allowed state event →
      system.step state event = some target → holds target)
    {state : σ} (reachable : Reachable system allowed state) : holds state := by
  induction reachable with
  | start isInitial => exact initial _ isInitial
  | next _ isAllowed stepped inductionHypothesis =>
      exact preserved _ _ _ inductionHypothesis isAllowed stepped

/-- Allowing more steps reaches no fewer states. -/
theorem Reachable.mono {system : System σ ε} {allowed permitted : σ → ε → Prop}
    (weaker : ∀ state event, allowed state event → permitted state event)
    {state : σ} (reachable : Reachable system allowed state) :
    Reachable system permitted state := by
  induction reachable with
  | start isInitial => exact .start isInitial
  | next _ isAllowed stepped inductionHypothesis =>
      exact .next inductionHypothesis (weaker _ _ isAllowed) stepped

/-- Every step of a replay is allowed. -/
def Admits (system : System σ ε) (allowed : σ → ε → Prop) : σ → List ε → Prop
  | _, [] => True
  | state, event :: rest =>
      allowed state event ∧
        ∀ next, system.step state event = some next → system.Admits allowed next rest

theorem admits_of_forall {system : System σ ε} {allowed : σ → ε → Prop} {events : List ε}
    (always : ∀ event ∈ events, ∀ state, allowed state event) (state : σ) :
    system.Admits allowed state events := by
  induction events generalizing state with
  | nil => trivial
  | cons event rest inductionHypothesis =>
      refine ⟨always event List.mem_cons_self state, fun next _ => inductionHypothesis ?_ next⟩
      intro later member
      exact always later (List.mem_cons_of_mem _ member)

/-- A replay whose every step is allowed ends in a reachable state. -/
theorem Reachable.of_run {system : System σ ε} {allowed : σ → ε → Prop}
    {events : List ε} {state target : σ} (reachable : Reachable system allowed state)
    (admitted : system.Admits allowed state events)
    (replayed : system.run state events = some target) :
    Reachable system allowed target := by
  induction events generalizing state with
  | nil =>
      cases replayed
      exact reachable
  | cons event rest inductionHypothesis =>
      obtain ⟨next, stepped, remaining⟩ := Option.bind_eq_some_iff.mp replayed
      exact inductionHypothesis (.next reachable admitted.1 stepped) (admitted.2 next stepped)
        remaining

theorem run_append {system : System σ ε} {events later : List ε} {state middle target : σ}
    (replayed : system.run state events = some middle)
    (remaining : system.run middle later = some target) :
    system.run state (events ++ later) = some target := by
  induction events generalizing state with
  | nil =>
      cases replayed
      exact remaining
  | cons first rest inductionHypothesis =>
      obtain ⟨next, begun, continued⟩ := Option.bind_eq_some_iff.mp replayed
      rw [List.cons_append, run, begun]
      exact inductionHypothesis continued

theorem run_concat {system : System σ ε} {events : List ε} {event : ε}
    {state middle target : σ} (replayed : system.run state events = some middle)
    (stepped : system.step middle event = some target) :
    system.run state (events ++ [event]) = some target := by
  apply run_append replayed
  rw [run, stepped]
  rfl

/-- When every state on the way to a goal has a chosen step that stays on the way and comes
nearer, a run of chosen steps reaches the goal. -/
theorem exists_run_of_rank {system : System σ ε} {chosen : ε → Prop} {onWay goal : σ → Prop}
    (rank : σ → Nat)
    (progress : ∀ state, onWay state → goal state ∨ ∃ event target, chosen event ∧
      system.step state event = some target ∧ onWay target ∧ rank target < rank state)
    {state : σ} (start : onWay state) :
    ∃ events target, (∀ event ∈ events, chosen event) ∧
      system.run state events = some target ∧ goal target := by
  induction distance : rank state using Nat.strongRecOn generalizing state with
  | _ _ inductionHypothesis =>
      subst distance
      rcases progress state start with reached | ⟨event, next, isChosen, stepped, onWay, nearer⟩
      · exact ⟨[], state, fun _ member => absurd member List.not_mem_nil, rfl, reached⟩
      · obtain ⟨events, target, allChosen, replayed, reached⟩ :=
          inductionHypothesis (rank next) nearer onWay rfl
        have replayed : system.run state (event :: events) = some target := by
          rw [run, stepped]
          exact replayed
        exact ⟨event :: events, target, List.forall_mem_cons.mpr ⟨isChosen, allChosen⟩, replayed,
          reached⟩

/-- A view of the states under which every allowed step is a permitted step of
another system, or no step at all, maps reachable states to reachable ones. -/
theorem Reachable.simulated {τ : Type*} {δ : Type*} {concrete : System σ ε}
    {abstract : System τ δ} {allowed : σ → ε → Prop} {permitted : τ → δ → Prop} (view : σ → τ)
    (initial : ∀ state, concrete.init state → abstract.init (view state))
    (simulates : ∀ state event target, concrete.Reachable allowed state → allowed state event →
      concrete.step state event = some target → view target = view state ∨
        ∃ label, permitted (view state) label ∧
          abstract.step (view state) label = some (view target))
    {state : σ} (reachable : concrete.Reachable allowed state) :
    abstract.Reachable permitted (view state) := by
  induction reachable with
  | start isInitial => exact .start (initial _ isInitial)
  | next before isAllowed stepped inductionHypothesis =>
      rcases simulates _ _ _ before isAllowed stepped with same | ⟨label, isPermitted, abstractly⟩
      · rw [same]
        exact inductionHypothesis
      · exact .next inductionHypothesis isPermitted abstractly

end System

/-! ## Runs without guards -/

section Fold

variable {σ : Type u} {ε : Type v}

/-- What every step keeps, a run keeps. -/
theorem foldl_of_preserved {next : σ → ε → σ} {kept : σ → Prop}
    (preserved : ∀ state event, kept state → kept (next state event)) {start : σ}
    (isKept : kept start) (events : List ε) : kept (events.foldl next start) := by
  induction events generalizing start with
  | nil => exact isKept
  | cons event rest inductionHypothesis => exact inductionHypothesis (preserved start event isKept)

/-- When a step from a state in which a property holds keeps it exactly unless it breaks it, the
property holds all the way exactly when no step breaks it. -/
theorem forall_prefix_foldl_iff {next : σ → ε → σ} {kept holds : σ → Prop} {breaks : σ → ε → Prop}
    (preserved : ∀ state event, kept state → kept (next state event))
    (stepwise : ∀ state event, kept state → holds state →
      (holds (next state event) ↔ ¬breaks state event))
    {start : σ} (isKept : kept start) (isHeld : holds start) (events : List ε) :
    (∀ made, made <+: events → holds (made.foldl next start)) ↔
      ∀ made event, made ++ [event] <+: events → ¬breaks (made.foldl next start) event := by
  have keptAfter : ∀ made : List ε, kept (made.foldl next start) :=
    foldl_of_preserved preserved isKept
  constructor
  · intro all made event isPrefix
    have before := all made ((List.prefix_append made [event]).trans isPrefix)
    have after := all (made ++ [event]) isPrefix
    rw [List.foldl_append] at after
    exact (stepwise _ event (keptAfter made) before).mp after
  · intro unbroken made
    induction made using List.reverseRecOn with
    | nil => exact fun _ => isHeld
    | append_singleton made event inductionHypothesis =>
        intro isPrefix
        have before := inductionHypothesis ((List.prefix_append made [event]).trans isPrefix)
        rw [List.foldl_append]
        exact (stepwise _ event (keptAfter made) before).mpr (unbroken made event isPrefix)

end Fold

end ZkLlmGateway.Transition
