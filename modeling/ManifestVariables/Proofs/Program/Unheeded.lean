import ManifestVariables.Proofs.Program.Transcript

/-!
# Answers that a program does not heed

A program ignores the answers to some questions when it goes on in the same way whatever
they are (`Program.Ignores`). Sequences and translations of such programs are such programs.
Two runs of one whose surroundings differ only in these answers, and in what these questions
do to them, ask the same questions and have the same result (`Program.Ignores.run_related`).
-/

namespace ManifestVariables.Program

variable {I J : Interface} {α β : Type} {unheeded : I.Question → Prop} {program : Program I α}

/-- A program goes on in the same way whatever the answer to an unheeded question is. -/
def Ignores (unheeded : I.Question → Prop) : Program I α → Prop
  | done _ => True
  | ask question next =>
    (unheeded question → ∀ first second, next first = next second) ∧
      ∀ answer, (next answer).Ignores unheeded

theorem Ignores.andThen {next : α → Program I β} (ignores : program.Ignores unheeded)
    (followed : ∀ result, (next result).Ignores unheeded) :
    (program.andThen next).Ignores unheeded := by
  induction program with
  | done result => exact followed result
  | ask question continuation ih =>
    obtain ⟨alike, rest⟩ := ignores
    exact ⟨fun ignored first second => congrArg (·.andThen next) (alike ignored first second),
      fun answer => ih answer (rest answer)⟩

theorem ignores_translate {answer : (question : J.Question) → Program I (J.Answer question)}
    (ignores : ∀ question, (answer question).Ignores unheeded) (program : Program J α) :
    (program.translate answer).Ignores unheeded := by
  induction program with
  | done result => trivial
  | ask question next ih => exact (ignores question).andThen ih

section Run

variable {σ τ : Type} {answer : (question : I.Question) → σ → I.Answer question × σ}
  {other : (question : I.Question) → τ → I.Answer question × τ} {related : σ → τ → Prop}

/-- Surroundings that answer all heeded questions alike and stay related lead to the same
questions and the same result, whatever else they answer. -/
theorem Ignores.run_related (ignores : program.Ignores unheeded)
    (heeded : ∀ question state counterpart, ¬ unheeded question → related state counterpart →
      (answer question state).1 = (other question counterpart).1)
    (step : ∀ question state counterpart, related state counterpart →
      related (answer question state).2 (other question counterpart).2)
    (state : σ) (counterpart : τ) (holds : related state counterpart) :
    (program.run answer state).1 = (program.run other counterpart).1 ∧
      (program.transcript answer state).map Exchange.question =
        (program.transcript other counterpart).map Exchange.question ∧
      related (program.run answer state).2 (program.run other counterpart).2 := by
  induction program generalizing state counterpart with
  | done result => exact ⟨rfl, rfl, holds⟩
  | ask question next ih =>
    obtain ⟨alike, rest⟩ := ignores
    have same : next (answer question state).1 = next (other question counterpart).1 := by
      by_cases ignored : unheeded question
      · exact alike ignored _ _
      · rw [heeded question state counterpart ignored holds]
    simp only [run, transcript, List.map_cons, same]
    obtain ⟨result, questions, still⟩ := ih _ (rest _) _ _ (step question _ _ holds)
    exact ⟨result, congrArg _ questions, still⟩

end Run

end ManifestVariables.Program
