/-!
# Programs that ask their surroundings

Everything here that reads or writes outside itself is a `Program`: it asks
questions, one at a time, and goes on with each answer. An `Interface` says which
questions there are and what type of answer each has. What answers them is chosen
later: `Program.run` answers from a state, `Program.interpret` in any monad, and
`Program.translate` asks questions of another interface instead. Since a program
gives up control at every question, the same program can be run alone or
interleaved with others.
-/

namespace ManifestVariables

/-- Questions, and the type of the answer to each. -/
structure Interface where
  Question : Type
  Answer : Question → Type

/-- A computation that asks questions and ends with a result. -/
inductive Program (I : Interface) (α : Type) where
  | done (result : α)
  | ask (question : I.Question) (next : I.Answer question → Program I α)

namespace Program

variable {I J : Interface} {α β : Type}

/-- Goes on with the result of a program. -/
def andThen : Program I α → (α → Program I β) → Program I β
  | done result, next => next result
  | ask question continuation, next =>
    ask question fun answer => (continuation answer).andThen next

instance : Monad (Program I) where
  pure := done
  bind := andThen

/-- Asks one question and ends with its answer. -/
def query (question : I.Question) : Program I (I.Answer question) :=
  ask question done

/-- Answers each question by a program of another interface. -/
def translate (answer : (question : I.Question) → Program J (I.Answer question)) :
    Program I α → Program J α
  | done result => done result
  | ask question next =>
    (answer question).andThen fun reply => translate answer (next reply)

/-- Answers each question from a state, which the answer may change. -/
def run {σ : Type} (answer : (question : I.Question) → σ → I.Answer question × σ) :
    Program I α → σ → α × σ
  | done result, state => (result, state)
  | ask question next, state =>
    let reply := answer question state
    run answer (next reply.1) reply.2

/-- Answers each question in a monad. -/
def interpret {m : Type → Type} [Monad m]
    (answer : (question : I.Question) → m (I.Answer question)) : Program I α → m α
  | done result => pure result
  | ask question next => do interpret answer (next (← answer question))

@[simp] theorem pure_eq (result : α) : (pure result : Program I α) = done result := rfl

@[simp] theorem bind_eq (program : Program I α) (next : α → Program I β) :
    program >>= next = program.andThen next := rfl

@[simp] theorem andThen_done (program : Program I α) : program.andThen done = program := by
  induction program with
  | done => rfl
  | ask question next ih => simp [andThen, ih]

theorem andThen_assoc {γ : Type} (program : Program I α) (first : α → Program I β)
    (second : β → Program I γ) :
    (program.andThen first).andThen second =
      program.andThen fun result => (first result).andThen second := by
  induction program with
  | done => rfl
  | ask question next ih => simp [andThen, ih]

theorem run_andThen {σ : Type} (answer : (question : I.Question) → σ → I.Answer question × σ)
    (program : Program I α) (next : α → Program I β) (state : σ) :
    (program.andThen next).run answer state =
      (next (program.run answer state).1).run answer (program.run answer state).2 := by
  induction program generalizing state with
  | done => rfl
  | ask question continuation ih => simp [andThen, run, ih]

end Program

end ManifestVariables
