import ZkLlmGateway.Interaction.Program

/-!
# Programs that are alone with their server

A server answers the calls of a program from a state of its own, and may change
it with every answer.  How it serves a call is chosen from outside, so that the
choices of a run are its faults; `Performs` lists them next to the calls.
-/

namespace ZkLlmGateway.Interaction.Program

universe u v w

/-- A call, and how it was served. -/
structure Serving (Call : Type u) (Choice : Type v) where
  query : Call
  choice : Choice

section Performs

variable {Call : Type u} {Answer : Call → Type u} {Choice : Type v} {σ : Type w} {α β : Type u}

/-- `Performs serve program state servings value final`: served as `servings` says, the program
returns `value` and takes the server from `state` to `final`. -/
inductive Performs (serve : σ → (query : Call) → Choice → Option (Answer query × σ)) :
    Program Call Answer α → σ → List (Serving Call Choice) → α → σ → Prop
  | done (value : α) (state : σ) : Performs serve (done value) state [] value state
  | call {query : Call} {resume : Answer query → Program Call Answer α} {choice : Choice}
      {answer : Answer query} {state next final : σ} {servings : List (Serving Call Choice)}
      {value : α} : serve state query choice = some (answer, next) →
      Performs serve (resume answer) next servings value final →
      Performs serve (call query resume) state (⟨query, choice⟩ :: servings) value final

variable {serve : σ → (query : Call) → Choice → Option (Answer query × σ)} {state final : σ}
  {servings : List (Serving Call Choice)}

@[simp]
theorem performs_done_iff {value result : α} :
    Performs serve (done value) state servings result final ↔
      servings = [] ∧ result = value ∧ final = state := by
  constructor
  · rintro ⟨⟩
    exact ⟨rfl, rfl, rfl⟩
  · rintro ⟨rfl, rfl, rfl⟩
    exact .done _ _

theorem performs_call_iff {query : Call} {resume : Answer query → Program Call Answer α}
    {result : α} :
    Performs serve (call query resume) state servings result final ↔
      ∃ choice answer next rest, serve state query choice = some (answer, next) ∧
        servings = ⟨query, choice⟩ :: rest ∧
        Performs serve (resume answer) next rest result final := by
  constructor
  · rintro ⟨⟩
    exact ⟨_, _, _, _, by assumption, rfl, by assumption⟩
  · rintro ⟨choice, answer, next, rest, served, rfl, performs⟩
    exact .call served performs

/-- A sequence performs its first part, and then the second on what the first left. -/
theorem performs_bind_iff {program : Program Call Answer α} {following : α → Program Call Answer β}
    {result : β} :
    Performs serve (program.bind following) state servings result final ↔
      ∃ first second value middle, servings = first ++ second ∧
        Performs serve program state first value middle ∧
        Performs serve (following value) middle second result final := by
  induction program generalizing state servings with
  | done value =>
      constructor
      · intro performs
        exact ⟨[], servings, value, state, rfl, .done value state, performs⟩
      · rintro ⟨first, second, middle, between, rfl, performsFirst, performsSecond⟩
        obtain ⟨rfl, rfl, rfl⟩ := performs_done_iff.mp performsFirst
        exact performsSecond
  | call query resume inductionHypothesis =>
      rw [bind, performs_call_iff]
      constructor
      · rintro ⟨choice, answer, next, rest, served, rfl, performs⟩
        obtain ⟨first, second, value, middle, rfl, performsFirst, performsSecond⟩ :=
          (inductionHypothesis answer).mp performs
        exact ⟨⟨query, choice⟩ :: first, second, value, middle, rfl, .call served performsFirst,
          performsSecond⟩
      · rintro ⟨first, second, value, middle, rfl, performsFirst, performsSecond⟩
        obtain ⟨choice, answer, next, rest, served, rfl, performsRest⟩ :=
          performs_call_iff.mp performsFirst
        exact ⟨choice, answer, next, rest ++ second, served, rfl, (inductionHypothesis answer).mpr
          ⟨rest, second, value, middle, rfl, performsRest, performsSecond⟩⟩

/-- What is performed is a run: the answers are those of the server. -/
theorem Performs.exists_runs {program : Program Call Answer α} {value : α}
    (performs : Performs serve program state servings value final) :
    ∃ events, Runs program events value ∧
      events.map Event.query = servings.map Serving.query := by
  induction performs with
  | done value state => exact ⟨[], .done value, rfl⟩
  | @call query resume choice answer state next final servings value _ _ inductionHypothesis =>
      obtain ⟨events, runs, same⟩ := inductionHypothesis
      refine ⟨⟨query, answer⟩ :: events, .call answer runs, ?_⟩
      rw [List.map_cons, List.map_cons, same]

end Performs

end ZkLlmGateway.Interaction.Program
