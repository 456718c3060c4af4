import ManifestVariables.Proofs.Program.Transcript

/-!
# What a program may ask

`Program.Asks` bounds the questions of a program, whatever it is answered. Sequences and
translations keep the bound, so it can be read off the parts of a program.
`Program.AsksInOrder` says more: the questions stand in a list, and they are asked in its
order, each once. From either follows what a run keeps of the state that answers it, and
what two runs of one program have in common (`Program.run_related`,
`Program.AsksInOrder.run_related`).
-/

namespace ManifestVariables.Program

variable {I J : Interface} {α β : Type}

/-- Every question that a program may come to ask is an allowed one. -/
def Asks (allowed : I.Question → Prop) : Program I α → Prop
  | done _ => True
  | ask question next => allowed question ∧ ∀ answer, (next answer).Asks allowed

/-- A program asks questions of a list in order, each once; it may end early. -/
def AsksInOrder : List I.Question → Program I α → Prop
  | _, done _ => True
  | [], ask _ _ => False
  | expected :: later, ask question next =>
    question = expected ∧ ∀ answer, (next answer).AsksInOrder later

variable {allowed : I.Question → Prop} {program : Program I α}

theorem Asks.andThen {next : α → Program I β} (asks : program.Asks allowed)
    (followed : ∀ result, (next result).Asks allowed) : (program.andThen next).Asks allowed := by
  induction program with
  | done result => exact followed result
  | ask question continuation ih => exact ⟨asks.1, fun answer => ih answer (asks.2 answer)⟩

theorem Asks.mono {permitted : I.Question → Prop} (asks : program.Asks allowed)
    (wider : ∀ question, allowed question → permitted question) : program.Asks permitted := by
  induction program with
  | done result => trivial
  | ask question continuation ih =>
    exact ⟨wider question asks.1, fun answer => ih answer (asks.2 answer)⟩

theorem Asks.of_reaches {transcript : List (Exchange I)} {rest : Program I α}
    (asks : program.Asks allowed) (reached : Reaches program transcript rest) :
    ∀ exchange ∈ transcript, allowed exchange.question := by
  induction reached with
  | refl => exact fun _ member => (nomatch member)
  | ask _ ih =>
    intro exchange member
    rcases List.mem_cons.mp member with rfl | later
    · exact asks.1
    · exact ih (asks.2 _) exchange later

theorem asksInOrder_done {result : α} (questions : List I.Question) :
    (done result : Program I α).AsksInOrder questions := by
  cases questions <;> trivial

/-- The questions of a transcript are the first ones of the list. -/
theorem AsksInOrder.prefix_of_reaches {questions : List I.Question} {rest : Program I α}
    {transcript : List (Exchange I)} (asks : program.AsksInOrder questions)
    (reached : Reaches program transcript rest) :
    transcript.map Exchange.question <+: questions := by
  induction reached generalizing questions with
  | refl => exact List.nil_prefix
  | ask _ ih =>
    cases questions with
    | nil => exact asks.elim
    | cons expected later =>
      obtain ⟨rfl, asks⟩ := asks
      exact List.cons_prefix_cons.mpr ⟨rfl, ih (asks _)⟩

/-- What follows without asking keeps the questions in order. -/
theorem AsksInOrder.andThen_done {questions : List I.Question} {next : α → Program I β}
    (asks : program.AsksInOrder questions) (ends : ∀ result, ∃ final, next result = done final) :
    (program.andThen next).AsksInOrder questions := by
  induction program generalizing questions with
  | done result =>
    obtain ⟨final, same⟩ := ends result
    rw [Program.andThen, same]
    exact asksInOrder_done questions
  | ask question continuation ih =>
    cases questions with
    | nil => exact asks.elim
    | cons expected later => exact ⟨asks.1, fun answer => ih answer (asks.2 answer)⟩

/-- A program that is done asks nothing more. -/
theorem eq_nil_of_reaches_done {result : α} {transcript : List (Exchange I)}
    {rest : Program I α} (reached : Reaches (done result) transcript rest) : transcript = [] := by
  cases reached with
  | refl => rfl

/-- The first exchange of a program that asks is about its question. -/
theorem reaches_ask_cons_iff {question : I.Question} {next : I.Answer question → Program I α}
    {exchange : Exchange I} {transcript : List (Exchange I)} {rest : Program I α} :
    Reaches (.ask question next) (exchange :: transcript) rest ↔
      ∃ answer, exchange = ⟨question, answer⟩ ∧ Reaches (next answer) transcript rest := by
  constructor
  · intro reached
    cases reached with
    | ask tail => exact ⟨_, rfl, tail⟩
  · rintro ⟨answer, rfl, tail⟩
    exact .ask tail

section Run

variable {σ τ : Type} {answer : (question : I.Question) → σ → I.Answer question × σ}
  {other : (question : I.Question) → τ → I.Answer question × τ}

/-- What allowed questions keep of a state is kept by a run that asks no other, and so each
of its exchanges is one that such a state gives. -/
theorem transcript_fits {kept : σ → Prop} {fits : Exchange I → Prop} {state : σ}
    (asks : ∀ exchange ∈ program.transcript answer state, allowed exchange.question)
    (step : ∀ question state, allowed question → kept state →
      fits ⟨question, (answer question state).1⟩ ∧ kept (answer question state).2)
    (holds : kept state) :
    (∀ exchange ∈ program.transcript answer state, fits exchange) ∧
      kept (program.run answer state).2 := by
  induction program generalizing state with
  | done result => exact ⟨fun _ member => (nomatch member), holds⟩
  | ask question next ih =>
    obtain ⟨first, rest⟩ := List.forall_mem_cons.mp asks
    obtain ⟨here, still⟩ := step question state first holds
    obtain ⟨later, final⟩ := ih _ rest still
    exact ⟨List.forall_mem_cons.mpr ⟨here, later⟩, final⟩

/-- The exchanges of asking questions one after the other. -/
def inTurn (answer : (question : I.Question) → σ → I.Answer question × σ) :
    List I.Question → σ → List (Exchange I)
  | [], _ => []
  | question :: rest, state =>
    ⟨question, (answer question state).1⟩ :: inTurn answer rest (answer question state).2

@[simp] theorem map_question_inTurn (questions : List I.Question) (state : σ) :
    (inTurn answer questions state).map Exchange.question = questions := by
  induction questions generalizing state with
  | nil => rfl
  | cons question rest ih => exact congrArg _ (ih _)

theorem exists_state_of_mem_inTurn {exchange : Exchange I} {questions : List I.Question}
    {state : σ} (member : exchange ∈ inTurn answer questions state) :
    ∃ before, exchange.answer = (answer exchange.question before).1 := by
  induction questions generalizing state with
  | nil => cases member
  | cons question rest ih =>
    rcases List.mem_cons.mp member with rfl | later
    · exact ⟨state, rfl⟩
    · exact ih later

/-- A program that asks questions in order has the answers that they have one after the
other, as far as it goes. -/
theorem AsksInOrder.transcript_prefix_inTurn {questions : List I.Question}
    (asks : program.AsksInOrder questions) (state : σ) :
    program.transcript answer state <+: inTurn answer questions state := by
  induction program generalizing questions state with
  | done => exact List.nil_prefix
  | ask question next ih =>
    cases questions with
    | nil => exact asks.elim
    | cons expected later =>
      obtain ⟨rfl, asks⟩ := asks
      exact List.cons_prefix_cons.mpr ⟨rfl, ih _ (asks _) _⟩

/-- A program that ends after a transcript has its result in a state that gives the answers
of the transcript, and leaves the state that is then reached. -/
theorem Ends.run_of_serves {transcript : List (Exchange I)} {result : α} {state final : σ}
    (ended : Ends program transcript result)
    (served : Serves (fun before exchange after =>
        answer exchange.question before = (exchange.answer, after))
      (fun _ _ => False) state transcript final) :
    program.run answer state = (result, final) := by
  induction served generalizing program with
  | refl =>
    rw [ended.eq_of_nil]
    rfl
  | meanwhile change _ => exact change.elim
  | @answered before next _ exchange _ reply _ ih =>
    cases program with
    | done => exact nomatch (ends_done_iff.mp ended).1
    | ask question continuation =>
      obtain ⟨_, _, same, tail⟩ := ends_ask_iff.mp ended
      cases same
      rw [run, reply]
      exact ih tail

/-- A translated program is run by running the answers to its questions. -/
theorem run_translate {answer : (question : J.Question) → σ → J.Answer question × σ}
    (reply : (question : I.Question) → Program J (I.Answer question)) (program : Program I α)
    (state : σ) :
    (program.translate reply).run answer state =
      program.run (fun question state => (reply question).run answer state) state := by
  induction program generalizing state with
  | done result => rfl
  | ask question next ih =>
    rw [Program.translate, run_andThen, ih]
    rfl

/-- States that answer every question alike and stay related lead to the same result. -/
theorem run_related {related : σ → τ → Prop} {state : σ} {counterpart : τ}
    (step : ∀ question state counterpart, related state counterpart →
      (answer question state).1 = (other question counterpart).1 ∧
        related (answer question state).2 (other question counterpart).2)
    (holds : related state counterpart) (program : Program I α) :
    (program.run answer state).1 = (program.run other counterpart).1 ∧
      related (program.run answer state).2 (program.run other counterpart).2 := by
  induction program generalizing state counterpart with
  | done result => exact ⟨rfl, holds⟩
  | ask question next ih =>
    obtain ⟨same, still⟩ := step question state counterpart holds
    simp only [run, same]
    exact ih _ still

/-- Where each question is asked at most once, it is enough that states answer those
questions alike that are still to come. -/
theorem AsksInOrder.run_related {related : List I.Question → σ → τ → Prop}
    {questions : List I.Question} {state : σ} {counterpart : τ}
    (asks : program.AsksInOrder questions)
    (step : ∀ question later state counterpart, related (question :: later) state counterpart →
      (answer question state).1 = (other question counterpart).1 ∧
        related later (answer question state).2 (other question counterpart).2)
    (holds : related questions state counterpart) :
    (program.run answer state).1 = (program.run other counterpart).1 ∧
      ∃ later, related later (program.run answer state).2 (program.run other counterpart).2 := by
  induction program generalizing questions state counterpart with
  | done result => exact ⟨rfl, questions, holds⟩
  | ask question next ih =>
    cases questions with
    | nil => exact asks.elim
    | cons expected later =>
      obtain ⟨rfl, asks⟩ := asks
      obtain ⟨same, still⟩ := step question later state counterpart holds
      simp only [run, same]
      exact ih _ (asks _) still

end Run

end ManifestVariables.Program
