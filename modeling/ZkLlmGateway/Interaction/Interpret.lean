import ZkLlmGateway.Interaction.Program

/-!
# Calls that are made, and calls that are answered by programs

`Makes` speaks of executions that need not be complete: after some calls and
answers, the next call of the program is the given one.  `interpret` puts a
program in the place of every call.  What the composite does are then the
executions of the outer program, with the executions of the inner ones in the
place of its answers.
-/

namespace ZkLlmGateway.Interaction.Program

universe u

variable {Call Inner : Type u} {Answer : Call → Type u} {Reply : Inner → Type u} {α β : Type u}

/-! ## Calls that are made -/

/-- `Makes program events query`: after the calls and answers of `events` the
program makes the call `query`. -/
inductive Makes : Program Call Answer α → List (Event Call Answer) → Call → Prop
  | now {query : Call} {resume : Answer query → Program Call Answer α} :
      Makes (call query resume) [] query
  | later {query next : Call} {resume : Answer query → Program Call Answer α}
      (answer : Answer query) {events : List (Event Call Answer)} :
      Makes (resume answer) events next →
      Makes (call query resume) (⟨query, answer⟩ :: events) next

theorem not_makes_done {value : α} {events : List (Event Call Answer)} {next : Call} :
    ¬Makes (done value) events next := by
  rintro ⟨⟩

theorem makes_call_iff {query next : Call} {resume : Answer query → Program Call Answer α}
    {events : List (Event Call Answer)} :
    Makes (call query resume) events next ↔ (events = [] ∧ next = query) ∨
      ∃ answer rest, events = ⟨query, answer⟩ :: rest ∧ Makes (resume answer) rest next := by
  constructor
  · intro makes
    cases makes with
    | now => exact .inl ⟨rfl, rfl⟩
    | later answer rest => exact .inr ⟨answer, _, rfl, rest⟩
  · rintro (⟨rfl, rfl⟩ | ⟨answer, rest, rfl, makes⟩)
    · exact .now
    · exact .later answer makes

/-- A sequence makes the calls of its first part, and then those of the second. -/
theorem makes_bind_iff {program : Program Call Answer α} {following : α → Program Call Answer β}
    {events : List (Event Call Answer)} {next : Call} :
    Makes (program.bind following) events next ↔ Makes program events next ∨
      ∃ first second value, events = first ++ second ∧ Runs program first value ∧
        Makes (following value) second next := by
  induction program generalizing events with
  | done value =>
      constructor
      · intro makes
        exact .inr ⟨[], events, value, rfl, .done value, makes⟩
      · rintro (makes | ⟨first, second, middle, rfl, runs, makes⟩)
        · exact absurd makes not_makes_done
        · obtain ⟨rfl, rfl⟩ := runs_done_iff.mp runs
          exact makes
  | call query resume inductionHypothesis =>
      rw [bind, makes_call_iff, makes_call_iff]
      constructor
      · rintro (first | ⟨answer, rest, rfl, makes⟩)
        · exact .inl (.inl first)
        · rcases (inductionHypothesis answer).mp makes with inFirst |
            ⟨first, second, value, rfl, runs, makes⟩
          · exact .inl (.inr ⟨answer, rest, rfl, inFirst⟩)
          · exact .inr ⟨⟨query, answer⟩ :: first, second, value, rfl, .call answer runs, makes⟩
      · rintro ((first | ⟨answer, rest, rfl, makes⟩) | ⟨first, second, value, rfl, runs, makes⟩)
        · exact .inl first
        · exact .inr ⟨answer, rest, rfl, (inductionHypothesis answer).mpr (.inl makes)⟩
        · obtain ⟨answer, rest, rfl, runsRest⟩ := runs_call_iff.mp runs
          exact .inr ⟨answer, rest ++ second, rfl, (inductionHypothesis answer).mpr
            (.inr ⟨rest, second, value, rfl, runsRest, makes⟩)⟩

/-- Every call of a complete execution is made after the calls before it. -/
theorem Runs.makes {program : Program Call Answer α} {front back : List (Event Call Answer)}
    {event : Event Call Answer} {result : α} (runs : Runs program (front ++ event :: back) result) :
    Makes program front event.query := by
  induction front generalizing program with
  | nil =>
      cases runs with
      | call answer rest => exact .now
  | cons first front inductionHypothesis =>
      cases runs with
      | call answer rest => exact .later answer (inductionHypothesis rest)

/-- The first calls of a program, which is then stopped. -/
def upTo : Nat → Program Call Answer α → Program Call Answer PUnit
  | 0, _ => done ⟨⟩
  | _ + 1, done _ => done ⟨⟩
  | limit + 1, call query resume => call query fun answer => (resume answer).upTo limit

/-- The program makes calls of this kind only. -/
def Only (allowed : Call → Prop) : Program Call Answer α → Prop
  | done _ => True
  | call query resume => allowed query ∧ ∀ answer, (resume answer).Only allowed

theorem Only.makes {allowed : Call → Prop} {program : Program Call Answer α}
    {events : List (Event Call Answer)} {next : Call} (only : program.Only allowed)
    (makes : Makes program events next) : allowed next := by
  induction makes with
  | now => exact only.1
  | later answer _ inductionHypothesis => exact inductionHypothesis (only.2 answer)

theorem Only.runs {allowed : Call → Prop} {program : Program Call Answer α}
    {events : List (Event Call Answer)} {result : α} (only : program.Only allowed)
    (runs : Runs program events result) : ∀ event ∈ events, allowed event.query := by
  intro event member
  obtain ⟨front, back, rfl⟩ := List.append_of_mem member
  exact only.makes runs.makes

/-- The program returns such values only, whatever it is answered. -/
def Returns (allowed : α → Prop) : Program Call Answer α → Prop
  | done value => allowed value
  | call _ resume => ∀ answer, (resume answer).Returns allowed

theorem Returns.runs {allowed : α → Prop} {program : Program Call Answer α}
    {events : List (Event Call Answer)} {result : α} (returns : program.Returns allowed)
    (runs : Runs program events result) : allowed result := by
  induction runs with
  | done value => exact returns
  | call answer _ inductionHypothesis => exact inductionHypothesis (returns answer)

theorem Returns.bind {allowed : β → Prop} (program : Program Call Answer α)
    {following : α → Program Call Answer β}
    (returns : ∀ value, (following value).Returns allowed) :
    (program.bind following).Returns allowed := by
  induction program with
  | done value => exact returns value
  | call query resume inductionHypothesis => exact inductionHypothesis

theorem bind_assoc {γ : Type u} (program : Program Call Answer α)
    (following : α → Program Call Answer β) (last : β → Program Call Answer γ) :
    (program.bind following).bind last = program.bind fun value => (following value).bind last := by
  induction program with
  | done value => rfl
  | call query resume inductionHypothesis =>
      simp only [bind, inductionHypothesis]

/-! ## Calls that are answered by programs -/

/-- Every call is answered by what the handler's program for it returns. -/
def interpret (handler : (query : Call) → Program Inner Reply (Answer query)) :
    Program Call Answer α → Program Inner Reply α
  | done value => done value
  | call query resume => (handler query).bind fun answer => (resume answer).interpret handler

/-- `Served handler events inner`: the handler's programs give the answers of
`events`, and `inner` is what they call for it, one after the other. -/
inductive Served (handler : (query : Call) → Program Inner Reply (Answer query)) :
    List (Event Call Answer) → List (Event Inner Reply) → Prop
  | nil : Served handler [] []
  | cons {event : Event Call Answer} {events : List (Event Call Answer)}
      {first second : List (Event Inner Reply)} :
      Runs (handler event.query) first event.answer → Served handler events second →
      Served handler (event :: events) (first ++ second)

section Interpret

theorem Served.of_append {handler : (query : Call) → Program Inner Reply (Answer query)}
    {front back : List (Event Call Answer)} {inner : List (Event Inner Reply)}
    (served : Served handler (front ++ back) inner) :
    ∃ first second, inner = first ++ second ∧ Served handler front first ∧
      Served handler back second := by
  induction front generalizing inner with
  | nil => exact ⟨[], inner, rfl, .nil, served⟩
  | cons event front inductionHypothesis =>
      cases served with
      | cons runs rest =>
          obtain ⟨first, second, rfl, inFront, inBack⟩ := inductionHypothesis rest
          exact ⟨_, second, (List.append_assoc _ _ _).symm, .cons runs inFront, inBack⟩

variable {handler : (query : Call) → Program Inner Reply (Answer query)}
  {program : Program Call Answer α}

/-- A complete execution of the composite is one of the program. -/
theorem exists_of_runs_interpret {inner : List (Event Inner Reply)} {result : α}
    (runs : Runs (program.interpret handler) inner result) :
    ∃ events, Runs program events result ∧ Served handler events inner := by
  induction program generalizing inner with
  | done value =>
      obtain ⟨rfl, rfl⟩ := runs_done_iff.mp runs
      exact ⟨[], .done _, .nil⟩
  | call query resume inductionHypothesis =>
      obtain ⟨first, second, answer, rfl, runsFirst, runsSecond⟩ := runs_bind_iff.mp runs
      obtain ⟨events, runsEvents, served⟩ := inductionHypothesis answer runsSecond
      exact ⟨⟨query, answer⟩ :: events, .call answer runsEvents, .cons runsFirst served⟩

/-- A call of the composite is made for a call of the program. -/
theorem exists_of_makes_interpret {inner : List (Event Inner Reply)} {next : Inner}
    (makes : Makes (program.interpret handler) inner next) :
    ∃ events query before after, inner = before ++ after ∧ Makes program events query ∧
      Served handler events before ∧ Makes (handler query) after next := by
  induction program generalizing inner with
  | done value => exact absurd makes not_makes_done
  | call query resume inductionHypothesis =>
      rcases makes_bind_iff.mp makes with inFirst | ⟨first, second, answer, rfl, runs, makes⟩
      · exact ⟨[], query, [], inner, rfl, .now, .nil, inFirst⟩
      · obtain ⟨events, last, before, after, rfl, makesEvents, served, inLast⟩ :=
          inductionHypothesis answer makes
        refine ⟨⟨query, answer⟩ :: events, last, first ++ before, after, ?_,
          .later answer makesEvents,
          .cons runs served, inLast⟩
        rw [List.append_assoc]

end Interpret

end ZkLlmGateway.Interaction.Program
