import ZkLlmGateway.Transition.System
import Mathlib.Data.List.Nodup
import Mathlib.Logic.Function.Basic

/-!
# Sections under a lock

Tasks queue for a lock and work on its object one after the other.  A section may
pause with the lock until it is answered, and it may be given up where it pauses.
The object is what the sections have made of it one by one, in the order in which
their tasks have come to the lock.
-/

namespace ZkLlmGateway.Transition

universe u

/-! ## Sections -/

/-- Where a section stops: it waits to be answered, or returns. -/
inductive Pause (Wait Out : Type u)
  | waits (wait : Wait)
  | returns (out : Out)

/-- What sections do with the object, up to where they stop. -/
structure Sections (σ Op Input Wait Out : Type u) where
  enter : σ → Op → Input → Option (σ × Pause Wait Out)
  resume : σ → Wait → Input → Option (σ × Pause Wait Out)

/-- A section that is over: it has returned, or was given up where it waited. -/
structure Turn (ι Op Input Wait Out : Type u) where
  task : ι
  op : Op
  inputs : List Input
  pause : Pause Wait Out

section Executions

variable {ι σ Op Input Wait Out : Type u}

/-- One section alone with the object. -/
inductive Sections.Executes (sections : Sections σ Op Input Wait Out) (start : σ) (op : Op) :
    List Input → σ → Pause Wait Out → Prop
  | enter {input : Input} {next : σ} {pause : Pause Wait Out}
      (entered : sections.enter start op input = some (next, pause)) :
      Executes sections start op [input] next pause
  | resume {inputs : List Input} {middle next : σ} {wait : Wait} {input : Input}
      {pause : Pause Wait Out} (before : Executes sections start op inputs middle (.waits wait))
      (resumed : sections.resume middle wait input = some (next, pause)) :
      Executes sections start op (inputs ++ [input]) next pause

/-- Sections one after the other. -/
inductive Sections.Serial (sections : Sections σ Op Input Wait Out) (start : σ) :
    List (Turn ι Op Input Wait Out) → σ → Prop
  | nil : Serial sections start [] start
  | concat {turns : List (Turn ι Op Input Wait Out)} {turn : Turn ι Op Input Wait Out}
      {middle object : σ} (before : Serial sections start turns middle)
      (executed : sections.Executes middle turn.op turn.inputs object turn.pause) :
      Serial sections start (turns ++ [turn]) object

end Executions

/-! ## The lock -/

/-- The section that has the lock. -/
structure Holder (ι Op Input Wait : Type u) where
  task : ι
  op : Op
  inputs : List Input
  wait : Wait

/-- An object with its lock.  What it was at first, the arrivals and the turns are history. -/
structure Mutex (ι σ Op Input Wait Out : Type u) where
  initial : σ
  object : σ
  queue : List (ι × Op)
  holder : Option (Holder ι Op Input Wait)
  results : ι → Option Out
  arrivals : List (ι × Op)
  turns : List (Turn ι Op Input Wait Out)

inductive MutexEvent (ι Op Input : Type u)
  | request (task : ι) (op : Op)
  | acquire (input : Input)
  | answer (input : Input)
  | cancel (task : ι)

namespace Mutex

variable {ι σ Op Input Wait Out : Type u} [DecidableEq ι]

/-- An object that no task has come to. -/
def fresh (object : σ) : Mutex ι σ Op Input Wait Out :=
  ⟨object, object, [], none, fun _ => none, [], []⟩

/-- The section of a task has come to a stop. -/
def settle (mutex : Mutex ι σ Op Input Wait Out) (task : ι) (op : Op) (inputs : List Input) :
    σ × Pause Wait Out → Mutex ι σ Op Input Wait Out
  | (next, .waits wait) => { mutex with object := next, holder := some ⟨task, op, inputs, wait⟩ }
  | (next, .returns out) => { mutex with
      object := next
      holder := none
      results := Function.update mutex.results task (some out)
      turns := mutex.turns ++ [⟨task, op, inputs, .returns out⟩] }

/-- The lock is given back by a section that has not returned. -/
def abandon (mutex : Mutex ι σ Op Input Wait Out) (holder : Holder ι Op Input Wait) :
    Mutex ι σ Op Input Wait Out :=
  { mutex with
    holder := none
    turns := mutex.turns ++ [⟨holder.task, holder.op, holder.inputs, .waits holder.wait⟩] }

def step (sections : Sections σ Op Input Wait Out) (mutex : Mutex ι σ Op Input Wait Out) :
    MutexEvent ι Op Input → Option (Mutex ι σ Op Input Wait Out)
  | .request task op =>
      if task ∈ mutex.arrivals.map Prod.fst then none
      else some { mutex with
        queue := mutex.queue ++ [(task, op)]
        arrivals := mutex.arrivals ++ [(task, op)] }
  | .acquire input =>
      match mutex.holder, mutex.queue with
      | none, (task, op) :: rest =>
          (sections.enter mutex.object op input).map
            ({ mutex with queue := rest }.settle task op [input])
      | _, _ => none
  | .answer input =>
      mutex.holder.bind fun holder =>
        (sections.resume mutex.object holder.wait input).map
          (mutex.settle holder.task holder.op (holder.inputs ++ [input]))
  | .cancel task =>
      match mutex.holder with
      | some holder =>
          if holder.task = task then some (mutex.abandon holder)
          else some { mutex with queue := mutex.queue.filter (·.1 ≠ task) }
      | none => some { mutex with queue := mutex.queue.filter (·.1 ≠ task) }

/-- What a step can do: a task comes, the first in the queue has the lock, the section that has
the lock goes on or is given up, or a task leaves the queue. -/
inductive Moves (sections : Sections σ Op Input Wait Out) (mutex : Mutex ι σ Op Input Wait Out) :
    MutexEvent ι Op Input → Mutex ι σ Op Input Wait Out → Prop
  | request {task : ι} {op : Op} (isNew : task ∉ mutex.arrivals.map Prod.fst) :
      Moves sections mutex (.request task op) { mutex with
        queue := mutex.queue ++ [(task, op)]
        arrivals := mutex.arrivals ++ [(task, op)] }
  | enter {task : ι} {op : Op} {rest : List (ι × Op)} {input : Input} {next : σ}
      {pause : Pause Wait Out} (isFree : mutex.holder = none)
      (isNext : mutex.queue = (task, op) :: rest)
      (entered : sections.enter mutex.object op input = some (next, pause)) :
      Moves sections mutex (.acquire input)
        ({ mutex with queue := rest }.settle task op [input] (next, pause))
  | resume {holder : Holder ι Op Input Wait} {input : Input} {next : σ} {pause : Pause Wait Out}
      (isHolder : mutex.holder = some holder)
      (resumed : sections.resume mutex.object holder.wait input = some (next, pause)) :
      Moves sections mutex (.answer input)
        (mutex.settle holder.task holder.op (holder.inputs ++ [input]) (next, pause))
  | abandon {holder : Holder ι Op Input Wait} (isHolder : mutex.holder = some holder) :
      Moves sections mutex (.cancel holder.task) (mutex.abandon holder)
  | withdraw {task : ι} :
      Moves sections mutex (.cancel task)
        { mutex with queue := mutex.queue.filter (·.1 ≠ task) }

theorem moves_of_step {sections : Sections σ Op Input Wait Out}
    {mutex target : Mutex ι σ Op Input Wait Out} {event : MutexEvent ι Op Input}
    (stepped : mutex.step sections event = some target) : Moves sections mutex event target := by
  cases event with
  | request task op =>
      obtain ⟨isNew, ⟨⟩⟩ := Option.ite_none_left_eq_some.mp stepped
      exact .request isNew
  | acquire input =>
      simp only [Mutex.step] at stepped
      split at stepped
      next task op rest isFree isNext =>
        obtain ⟨⟨next, pause⟩, entered, rfl⟩ := Option.map_eq_some_iff.mp stepped
        exact .enter isFree isNext entered
      next => contradiction
  | answer input =>
      obtain ⟨holder, isHolder, rest⟩ := Option.bind_eq_some_iff.mp stepped
      obtain ⟨⟨next, pause⟩, resumed, rfl⟩ := Option.map_eq_some_iff.mp rest
      exact .resume isHolder resumed
  | cancel task =>
      simp only [Mutex.step] at stepped
      split at stepped
      next holder isHolder =>
        split at stepped
        next same =>
          cases stepped
          rw [← same]
          exact .abandon isHolder
        next =>
          cases stepped
          exact .withdraw
      next =>
        cases stepped
        exact .withdraw

/-! ## Serializability -/

/-- The tasks that have had the lock, in their order. -/
def order (mutex : Mutex ι σ Op Input Wait Out) : List (ι × Op) :=
  mutex.turns.map (fun turn => (turn.task, turn.op)) ++
    (mutex.holder.map fun holder => (holder.task, holder.op)).toList

/-- The object is what the turns have made of it, in the order in which their tasks have come
to the lock, and the results are what they have returned. -/
structure Serialized (sections : Sections σ Op Input Wait Out)
    (mutex : Mutex ι σ Op Input Wait Out) : Prop where
  distinct : (mutex.arrivals.map Prod.fst).Nodup
  inOrder : (mutex.order ++ mutex.queue).Sublist mutex.arrivals
  serial : ∃ middle, sections.Serial mutex.initial mutex.turns middle ∧
    match mutex.holder with
    | none => mutex.object = middle
    | some holder =>
        sections.Executes middle holder.op holder.inputs mutex.object (.waits holder.wait)
  results : ∀ task out, mutex.results task = some out ↔
    ∃ turn ∈ mutex.turns, turn.task = task ∧ turn.pause = .returns out

section Steps

variable {sections : Sections σ Op Input Wait Out} {mutex target : Mutex ι σ Op Input Wait Out}

omit [DecidableEq ι] in
theorem serialized_fresh (sections : Sections σ Op Input Wait Out) (object : σ) :
    (fresh object : Mutex ι σ Op Input Wait Out).Serialized sections where
  distinct := List.nodup_nil
  inOrder := List.Sublist.refl _
  serial := ⟨object, .nil, rfl⟩
  results := by simp [fresh]

/-- A section that has the lock stops. -/
theorem Serialized.settle (distinct : (mutex.arrivals.map Prod.fst).Nodup) {task : ι} {op : Op}
    (inOrder : (mutex.turns.map (fun turn => (turn.task, turn.op)) ++
      (task, op) :: mutex.queue).Sublist mutex.arrivals)
    {middle : σ} (serial : sections.Serial mutex.initial mutex.turns middle)
    (results : ∀ task out, mutex.results task = some out ↔
      ∃ turn ∈ mutex.turns, turn.task = task ∧ turn.pause = .returns out)
    {inputs : List Input} {next : σ} {pause : Pause Wait Out}
    (executed : sections.Executes middle op inputs next pause) :
    (mutex.settle task op inputs (next, pause)).Serialized sections := by
  cases pause with
  | waits wait =>
      refine ⟨distinct, ?_, ⟨middle, serial, executed⟩, results⟩
      rw [order]
      simpa [Mutex.settle] using inOrder
  | returns out =>
      have isNew : ∀ turn ∈ mutex.turns, turn.task ≠ task := by
        intro turn member same
        have nodup := distinct.sublist (inOrder.map Prod.fst)
        rw [List.map_append, List.nodup_append] at nodup
        apply nodup.2.2 turn.task _ task (by simp) same
        simpa using ⟨turn, member, rfl⟩
      refine ⟨distinct, ?_, ⟨next, .concat serial executed, rfl⟩, fun other result => ?_⟩
      · rw [order]
        simpa [Mutex.settle] using inOrder
      · change Function.update mutex.results task (some out) other = some result ↔
          ∃ turn ∈ mutex.turns ++ [⟨task, op, inputs, .returns out⟩], _
        rw [Function.update_apply]
        split
        next isTask =>
          subst isTask
          simp only [List.mem_append, List.mem_singleton, or_and_right, exists_or, exists_eq_left,
            Option.some.injEq, Pause.returns.injEq, true_and]
          constructor
          · exact .inr
          · rintro (⟨turn, member, same, _⟩ | same)
            · exact absurd same (isNew turn member)
            · exact same
        next isOther =>
          rw [results]
          simp [Ne.symm isOther]

/-- **What every step keeps.** -/
theorem Serialized.step (serialized : mutex.Serialized sections)
    {event : MutexEvent ι Op Input} (stepped : mutex.step sections event = some target) :
    target.Serialized sections := by
  obtain ⟨distinct, inOrder, ⟨middle, serial, stands⟩, results⟩ := serialized
  cases moves_of_step stepped with
  | @request task op isNew =>
      refine ⟨?_, ?_, ⟨middle, serial, stands⟩, results⟩
      · rw [List.map_append, List.nodup_append]
        refine ⟨distinct, List.nodup_singleton _, ?_⟩
        intro other member last isLast same
        rw [List.map_singleton, List.mem_singleton] at isLast
        rw [same, isLast] at member
        exact isNew member
      · rw [← List.append_assoc]
        exact inOrder.append_right _
  | enter isFree isNext entered =>
      rw [isFree] at stands
      rw [stands] at entered
      rw [order, isFree, isNext, Option.map_none, Option.toList_none, List.append_nil] at inOrder
      apply Serialized.settle
      · exact distinct
      · exact inOrder
      · exact serial
      · exact results
      · exact .enter entered
  | resume isHolder resumed =>
      rw [isHolder] at stands
      rw [order, isHolder, Option.map_some, Option.toList_some, List.append_assoc] at inOrder
      exact .settle distinct inOrder serial results (.resume stands resumed)
  | abandon isHolder =>
      rw [isHolder] at stands
      rw [order, isHolder] at inOrder
      refine ⟨distinct, ?_, ⟨mutex.object, .concat serial stands, rfl⟩, fun other out => ?_⟩
      · rw [order]
        simpa [Mutex.abandon] using inOrder
      · rw [Mutex.abandon, results]
        simp [or_and_right, exists_or]
  | @withdraw task =>
      have shorter : (mutex.queue.filter (·.1 ≠ task)).Sublist mutex.queue := List.filter_sublist
      exact ⟨distinct, ((List.Sublist.refl _).append shorter).trans inOrder,
        ⟨middle, serial, stands⟩, results⟩

/-- Only a request is an arrival. -/
theorem arrivals_of_step {event : MutexEvent ι Op Input}
    (stepped : mutex.step sections event = some target) :
    target.arrivals = mutex.arrivals ∨ ∃ task op, event = .request task op ∧
      target.arrivals = mutex.arrivals ++ [(task, op)] := by
  cases moves_of_step stepped with
  | @request task op isNew => exact .inr ⟨task, op, rfl, rfl⟩
  | @enter _ _ _ _ _ pause | @resume _ _ _ pause => cases pause <;> exact .inl rfl
  | abandon | withdraw => exact .inl rfl

/-- Only a section that is cancelled is given up. -/
theorem cancelled_of_step {event : MutexEvent ι Op Input}
    (stepped : mutex.step sections event = some target) {turn : Turn ι Op Input Wait Out}
    (member : turn ∈ target.turns) {wait : Wait} (waits : turn.pause = .waits wait) :
    turn ∈ mutex.turns ∨ event = .cancel turn.task := by
  have settled : ∀ (before : Mutex ι σ Op Input Wait Out) (task : ι) (op : Op)
      (inputs : List Input) (next : σ) (pause : Pause Wait Out),
      turn ∈ (before.settle task op inputs (next, pause)).turns → turn ∈ before.turns := by
    intro before task op inputs next pause isTurn
    cases pause with
    | waits wait => exact isTurn
    | returns out =>
        rcases List.mem_append.mp isTurn with isTurn | isTurn
        · exact isTurn
        · rw [List.mem_singleton.mp isTurn] at waits
          contradiction
  cases moves_of_step stepped with
  | request | withdraw => exact .inl member
  | enter | resume =>
      have kept := settled _ _ _ _ _ _ member
      exact .inl kept
  | abandon isHolder =>
      rcases List.mem_append.mp member with isTurn | isTurn
      · exact .inl isTurn
      · rw [List.mem_singleton.mp isTurn]
        exact .inr rfl

omit [DecidableEq ι] in
/-- A task that has the lock or waits for it has not returned. -/
theorem Serialized.results_eq_none (serialized : mutex.Serialized sections) {task : ι} {op : Op}
    (waiting : (task, op) ∈
      (mutex.holder.map fun holder => (holder.task, holder.op)).toList ++ mutex.queue) :
    mutex.results task = none := by
  by_contra isSome
  obtain ⟨out, returned⟩ := Option.ne_none_iff_exists'.mp isSome
  obtain ⟨turn, member, same, _⟩ := (serialized.results task out).mp returned
  have nodup := serialized.distinct.sublist (serialized.inOrder.map Prod.fst)
  rw [order, List.append_assoc, List.map_append, List.nodup_append] at nodup
  apply nodup.2.2 turn.task _ task (List.mem_map.mpr ⟨_, waiting, rfl⟩) same
  exact List.mem_map.mpr ⟨_, List.mem_map.mpr ⟨turn, member, rfl⟩, rfl⟩

omit [DecidableEq ι] in
/-- A task that has the lock or waits for it has come to it with what it is to do. -/
theorem Serialized.arrived_of_waiting (serialized : mutex.Serialized sections) {task : ι} {op : Op}
    (waiting : (task, op) ∈
      (mutex.holder.map fun holder => (holder.task, holder.op)).toList ++ mutex.queue) :
    (task, op) ∈ mutex.arrivals := by
  apply serialized.inOrder.mem
  rw [order, List.append_assoc]
  exact List.mem_append_right _ waiting

end Steps

end Mutex

end ZkLlmGateway.Transition
