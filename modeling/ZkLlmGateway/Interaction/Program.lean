import Mathlib.Data.List.Basic

/-!
# Programs that call their environment

A program is either finished or waits for the answer to a call.  Everything a
program does between two calls is pure, so the value a program resumes with is
the whole of what it learns from outside.  `Runs` lists the calls and answers
of one complete execution, with no assumption on the answers: it covers every
environment, and in particular every interference by other programs.
-/

namespace ZkLlmGateway.Interaction

universe u

/-- A computation that may call its environment before it returns. -/
inductive Program (Call : Type u) (Answer : Call → Type u) (α : Type u) : Type u
  | done (value : α) : Program Call Answer α
  | call (request : Call) (resume : Answer request → Program Call Answer α) :
      Program Call Answer α

namespace Program

variable {Call : Type u} {Answer : Call → Type u} {α β γ : Type u}

/-- Sequential composition. -/
def bind : Program Call Answer α → (α → Program Call Answer β) → Program Call Answer β
  | done value, next => next value
  | call request resume, next => call request fun answer => (resume answer).bind next

instance : Monad (Program Call Answer) where
  pure := done
  bind := bind

@[simp]
theorem pure_eq (value : α) : (pure value : Program Call Answer α) = done value :=
  rfl

@[simp]
theorem bind_done (value : α) (next : α → Program Call Answer β) :
    (done value).bind next = next value :=
  rfl

@[simp]
theorem done_bind (value : α) (next : α → Program Call Answer β) :
    (done value >>= next) = next value :=
  rfl

@[simp]
theorem call_bind (request : Call) (resume : Answer request → Program Call Answer α)
    (next : α → Program Call Answer β) :
    (call request resume >>= next) = call request fun answer => resume answer >>= next :=
  rfl

/-- The program that makes one call and returns its answer. -/
def request (query : Call) : Program Call Answer (Answer query) :=
  call query done

@[simp]
theorem request_bind (query : Call) (next : Answer query → Program Call Answer β) :
    (request query >>= next) = call query next :=
  rfl

/-! ## Complete executions -/

/-- A call together with the answer it received. -/
structure Event (Call : Type u) (Answer : Call → Type u) where
  query : Call
  answer : Answer query

/-- `Runs program events value`: the program makes exactly the calls of
`events`, receives their answers and returns `value`. -/
inductive Runs : Program Call Answer α → List (Event Call Answer) → α → Prop
  | done (value : α) : Runs (done value) [] value
  | call {query : Call} {resume : Answer query → Program Call Answer α}
      (answer : Answer query) {events : List (Event Call Answer)} {value : α} :
      Runs (resume answer) events value →
      Runs (call query resume) (⟨query, answer⟩ :: events) value

@[simp]
theorem runs_done_iff {value result : α} {events : List (Event Call Answer)} :
    Runs (done value) events result ↔ events = [] ∧ result = value := by
  constructor
  · rintro ⟨⟩
    exact ⟨rfl, rfl⟩
  · rintro ⟨rfl, rfl⟩
    exact .done _

theorem runs_call_iff {query : Call} {resume : Answer query → Program Call Answer α}
    {events : List (Event Call Answer)} {result : α} :
    Runs (call query resume) events result ↔
      ∃ answer rest, events = ⟨query, answer⟩ :: rest ∧ Runs (resume answer) rest result := by
  constructor
  · rintro ⟨⟩
    exact ⟨_, _, rfl, by assumption⟩
  · rintro ⟨answer, rest, rfl, runs⟩
    exact .call answer runs

/-- A run of a sequence is a run of its first part followed by a run of the
second from the value the first returned. -/
theorem runs_bind_iff {program : Program Call Answer α} {next : α → Program Call Answer β}
    {events : List (Event Call Answer)} {result : β} :
    Runs (program >>= next) events result ↔
      ∃ first second value, events = first ++ second ∧ Runs program first value ∧
        Runs (next value) second result := by
  induction program generalizing events with
  | done value =>
      constructor
      · intro runs
        exact ⟨[], events, value, rfl, .done value, runs⟩
      · rintro ⟨first, second, middle, rfl, runsFirst, runsSecond⟩
        obtain ⟨rfl, rfl⟩ := runs_done_iff.mp runsFirst
        exact runsSecond
  | call query resume ih =>
      rw [call_bind, runs_call_iff]
      constructor
      · rintro ⟨answer, rest, rfl, runs⟩
        obtain ⟨first, second, value, rfl, runsFirst, runsSecond⟩ := (ih answer).mp runs
        exact ⟨⟨query, answer⟩ :: first, second, value, rfl, .call answer runsFirst, runsSecond⟩
      · rintro ⟨first, second, value, rfl, runsFirst, runsSecond⟩
        obtain ⟨answer, rest, rfl, runsRest⟩ := runs_call_iff.mp runsFirst
        exact ⟨answer, rest ++ second, rfl, (ih answer).mpr
          ⟨rest, second, value, rfl, runsRest, runsSecond⟩⟩

/-! ## Executions in progress -/

/-- `Follows program events rest`: after the calls and answers of `events` the
program has become `rest`. -/
inductive Follows (program : Program Call Answer α) :
    List (Event Call Answer) → Program Call Answer α → Prop
  | start : Follows program [] program
  | next {events : List (Event Call Answer)} {query : Call}
      {resume : Answer query → Program Call Answer α} (answer : Answer query) :
      Follows program events (call query resume) →
      Follows program (events ++ [⟨query, answer⟩]) (resume answer)

/-- What is done after some calls completes the run they began. -/
theorem Follows.runs {program rest : Program Call Answer α}
    {events later : List (Event Call Answer)} {result : α}
    (follows : Follows program events rest) (runs : Runs rest later result) :
    Runs program (events ++ later) result := by
  induction follows generalizing later with
  | start => exact runs
  | next answer _ ih =>
      rw [List.append_assoc]
      exact ih (.call answer runs)

end Program

end ZkLlmGateway.Interaction
