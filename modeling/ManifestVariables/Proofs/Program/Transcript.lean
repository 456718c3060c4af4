import ManifestVariables.Program

/-!
# Transcripts of programs

A transcript lists questions, each with its answer. `Program.Reaches` relates a
program, a transcript and what is left of the program once it has had these
answers; `Program.Ends` is the case in which only a result is left. Neither says
where the answers come from, so what holds of every transcript holds under any
surroundings. `Serves` says that a state gave the answers, possibly while others
changed it as well.
-/

namespace ManifestVariables

/-- A question and its answer. -/
structure Exchange (I : Interface) where
  question : I.Question
  answer : I.Answer question

namespace Program

variable {I J : Interface} {α β : Type}

/-- What is left of a program after the exchanges of a transcript. -/
inductive Reaches : Program I α → List (Exchange I) → Program I α → Prop where
  | refl (program : Program I α) : Reaches program [] program
  | ask {question : I.Question} {next : I.Answer question → Program I α}
      {answer : I.Answer question} {transcript : List (Exchange I)} {rest : Program I α}
      (tail : Reaches (next answer) transcript rest) :
      Reaches (.ask question next) (⟨question, answer⟩ :: transcript) rest

/-- A program has no more to ask after a transcript, and this is its result. -/
abbrev Ends (program : Program I α) (transcript : List (Exchange I)) (result : α) : Prop :=
  Reaches program transcript (.done result)

theorem Reaches.append {program between rest : Program I α} {first second : List (Exchange I)}
    (reached : Reaches program first between) (followed : Reaches between second rest) :
    Reaches program (first ++ second) rest := by
  induction reached with
  | refl => exact followed
  | ask _ ih => exact .ask (ih followed)

theorem Reaches.eq_of_nil {program rest : Program I α} (reached : Reaches program [] rest) :
    program = rest := by
  cases reached with
  | refl => rfl

/-- A program that is left after some exchanges was left with another after the first. -/
theorem Reaches.exists_of_cons {program rest : Program I α} {exchange : Exchange I}
    {transcript : List (Exchange I)} (reached : Reaches program (exchange :: transcript) rest) :
    ∃ between, Reaches program [exchange] between ∧ Reaches between transcript rest := by
  cases reached with
  | ask tail => exact ⟨_, .ask (.refl _), tail⟩

@[simp] theorem ends_done_iff {result : α} {transcript : List (Exchange I)} {final : α} :
    Ends (.done result) transcript final ↔ transcript = [] ∧ final = result := by
  constructor
  · intro ended
    cases ended
    exact ⟨rfl, rfl⟩
  · rintro ⟨rfl, rfl⟩
    exact .refl _

theorem ends_ask_iff {question : I.Question} {next : I.Answer question → Program I α}
    {transcript : List (Exchange I)} {result : α} :
    Ends (.ask question next) transcript result ↔
      ∃ answer rest, transcript = ⟨question, answer⟩ :: rest ∧ Ends (next answer) rest result := by
  constructor
  · intro ended
    cases ended with
    | ask tail => exact ⟨_, _, rfl, tail⟩
  · rintro ⟨answer, rest, rfl, tail⟩
    exact .ask tail

/-- A sequence ends where its second part does, which starts from the result of the
first. -/
theorem ends_andThen_iff {program : Program I α} {next : α → Program I β}
    {transcript : List (Exchange I)} {result : β} :
    Ends (program.andThen next) transcript result ↔
      ∃ first between second, transcript = first ++ second ∧
        Ends program first between ∧ Ends (next between) second result := by
  induction program generalizing transcript with
  | done between =>
    constructor
    · intro ended
      exact ⟨[], between, transcript, rfl, .refl _, ended⟩
    · rintro ⟨first, middle, second, rfl, ended, followed⟩
      obtain ⟨rfl, rfl⟩ := ends_done_iff.mp ended
      exact followed
  | ask question continuation ih =>
    constructor
    · intro ended
      obtain ⟨answer, rest, rfl, tail⟩ := ends_ask_iff.mp ended
      obtain ⟨first, between, second, rfl, ended, followed⟩ := (ih answer).mp tail
      exact ⟨⟨question, answer⟩ :: first, between, second, rfl, .ask ended, followed⟩
    · rintro ⟨first, between, second, rfl, ended, followed⟩
      obtain ⟨answer, rest, rfl, tail⟩ := ends_ask_iff.mp ended
      exact .ask ((ih answer).mpr ⟨rest, between, second, rfl, tail, followed⟩)

/-- Two runs of a program in which the same question never had different answers
are the same run. -/
theorem Ends.eq_of_agree {program : Program I α} {first second : List (Exchange I)}
    {left right : α} (ended : Ends program first left) (again : Ends program second right)
    (agree : ∀ question answer other, ⟨question, answer⟩ ∈ first → ⟨question, other⟩ ∈ second →
      answer = other) :
    first = second ∧ left = right := by
  induction program generalizing first second with
  | done result =>
    obtain ⟨rfl, rfl⟩ := ends_done_iff.mp ended
    obtain ⟨rfl, rfl⟩ := ends_done_iff.mp again
    exact ⟨rfl, rfl⟩
  | ask question next ih =>
    obtain ⟨answer, rest, rfl, tail⟩ := ends_ask_iff.mp ended
    obtain ⟨other, more, rfl, follow⟩ := ends_ask_iff.mp again
    obtain rfl := agree question answer other List.mem_cons_self List.mem_cons_self
    have equal := ih answer tail follow fun question answer other member found =>
      agree question answer other (List.mem_cons_of_mem _ member) (List.mem_cons_of_mem _ found)
    exact ⟨by rw [equal.1], equal.2⟩

/-- The exchanges of another interface that stand for some exchanges, each question
being answered by a program. -/
inductive Expands (answer : (question : I.Question) → Program J (I.Answer question)) :
    List (Exchange I) → List (Exchange J) → Prop where
  | nil : Expands answer [] []
  | cons {exchange : Exchange I} {outer : List (Exchange I)} {inner rest : List (Exchange J)}
      (ended : Ends (answer exchange.question) inner exchange.answer)
      (tail : Expands answer outer rest) :
      Expands answer (exchange :: outer) (inner ++ rest)

/-- A translated program ends where the program does, with each exchange expanded. -/
theorem ends_translate_iff {answer : (question : I.Question) → Program J (I.Answer question)}
    {program : Program I α} {transcript : List (Exchange J)} {result : α} :
    Ends (program.translate answer) transcript result ↔
      ∃ outer, Ends program outer result ∧ Expands answer outer transcript := by
  induction program generalizing transcript with
  | done final =>
    constructor
    · intro ended
      obtain ⟨rfl, rfl⟩ := ends_done_iff.mp ended
      exact ⟨[], .refl _, .nil⟩
    · rintro ⟨outer, ended, expanded⟩
      obtain ⟨rfl, rfl⟩ := ends_done_iff.mp ended
      cases expanded
      exact .refl _
  | ask question next ih =>
    constructor
    · intro ended
      obtain ⟨inner, reply, rest, rfl, replied, tail⟩ := ends_andThen_iff.mp ended
      obtain ⟨outer, followed, expanded⟩ := (ih reply).mp tail
      exact ⟨⟨question, reply⟩ :: outer, .ask followed, .cons replied expanded⟩
    · rintro ⟨outer, ended, expanded⟩
      obtain ⟨reply, more, rfl, tail⟩ := ends_ask_iff.mp ended
      cases expanded with
      | cons replied expanded =>
        exact ends_andThen_iff.mpr
          ⟨_, reply, _, rfl, replied, (ih reply).mpr ⟨more, tail, expanded⟩⟩

/-- Each part of an expanded transcript stands for one exchange, and what comes before and after
it for the exchanges before and after. -/
theorem Expands.exists_split_of_mem {answer : (question : I.Question) → Program J (I.Answer question)}
    {outer : List (Exchange I)} {transcript : List (Exchange J)}
    (expanded : Expands answer outer transcript) {exchange : Exchange J}
    (member : exchange ∈ transcript) :
    ∃ earlier asked later before inner after, outer = earlier ++ asked :: later ∧
      transcript = before ++ inner ++ after ∧ Expands answer earlier before ∧
      Ends (answer asked.question) inner asked.answer ∧ Expands answer later after ∧
      exchange ∈ inner := by
  induction expanded with
  | nil => cases member
  | @cons asked outer inner rest ended tail ih =>
    rcases List.mem_append.mp member with here | there
    · exact ⟨[], asked, outer, [], inner, rest, rfl, rfl, .nil, ended, tail, here⟩
    · obtain ⟨earlier, found, later, before, part, after, rfl, rfl, preceded, replied, followed,
        within⟩ := ih there
      exact ⟨asked :: earlier, found, later, inner ++ before, part, after, rfl,
        by simp only [List.append_assoc], .cons ended preceded, replied, followed, within⟩

theorem Expands.exists_of_mem {answer : (question : I.Question) → Program J (I.Answer question)}
    {outer : List (Exchange I)} {transcript : List (Exchange J)}
    (expanded : Expands answer outer transcript) {exchange : Exchange J}
    (member : exchange ∈ transcript) :
    ∃ asked ∈ outer, ∃ before inner after, transcript = before ++ inner ++ after ∧
      Ends (answer asked.question) inner asked.answer ∧ exchange ∈ inner := by
  obtain ⟨_, asked, _, before, inner, after, rfl, same, _, replied, _, within⟩ :=
    expanded.exists_split_of_mem member
  exact ⟨asked, List.mem_append_right _ List.mem_cons_self, before, inner, after, same, replied,
    within⟩

/-- Each exchange has a part of an expanded transcript. -/
theorem Expands.exists_part {answer : (question : I.Question) → Program J (I.Answer question)}
    {outer : List (Exchange I)} {transcript : List (Exchange J)}
    (expanded : Expands answer outer transcript) {asked : Exchange I} (member : asked ∈ outer) :
    ∃ before inner after, transcript = before ++ inner ++ after ∧
      Ends (answer asked.question) inner asked.answer := by
  induction expanded with
  | nil => cases member
  | @cons exchange outer inner rest ended _ ih =>
    rcases List.mem_cons.mp member with rfl | later
    · exact ⟨[], inner, rest, rfl, ended⟩
    · obtain ⟨before, part, after, rfl, replied⟩ := ih later
      exact ⟨inner ++ before, part, after, by simp only [List.append_assoc], replied⟩

section Run

variable {σ : Type} (answer : (question : I.Question) → σ → I.Answer question × σ)

/-- The exchanges of a run. -/
def transcript : Program I α → σ → List (Exchange I)
  | done _, _ => []
  | ask question next, state =>
    let reply := answer question state
    ⟨question, reply.1⟩ :: transcript (next reply.1) reply.2

/-- A run ends with its result after its transcript. -/
theorem ends_transcript (program : Program I α) (state : σ) :
    Ends program (program.transcript answer state) (program.run answer state).1 := by
  induction program generalizing state with
  | done => exact .refl _
  | ask question next ih => exact .ask (ih _ _)

theorem transcript_andThen {β : Type} (program : Program I α) (next : α → Program I β)
    (state : σ) :
    (program.andThen next).transcript answer state =
      program.transcript answer state ++
        (next (program.run answer state).1).transcript answer (program.run answer state).2 := by
  induction program generalizing state with
  | done => rfl
  | ask question continuation ih => exact congrArg _ (ih _ _)

/-- A state gives the answers of a transcript one after the other. -/
def Gives : σ → List (Exchange I) → Prop
  | _, [] => True
  | state, ⟨question, reply⟩ :: rest =>
    (answer question state).1 = reply ∧ Gives (answer question state).2 rest

/-- A run in which the answers of a transcript are given is the run of this transcript. -/
theorem Ends.run_eq {program : Program I α} {transcript : List (Exchange I)} {result : α}
    {state : σ} (ended : Ends program transcript result) (given : Gives answer state transcript) :
    program.transcript answer state = transcript ∧
      program.run answer state = (result,
        transcript.foldl (fun state exchange => (answer exchange.question state).2) state) := by
  induction program generalizing transcript state with
  | done =>
    obtain ⟨rfl, rfl⟩ := ends_done_iff.mp ended
    exact ⟨rfl, rfl⟩
  | ask question next ih =>
    obtain ⟨reply, rest, rfl, tail⟩ := ends_ask_iff.mp ended
    obtain ⟨rfl, given⟩ := given
    obtain ⟨same, ran⟩ := ih _ tail given
    exact ⟨congrArg _ same, ran⟩

end Run

end Program

/-- A state answers the exchanges of a transcript in order, while others may change
it between them. -/
inductive Serves {I : Interface} {σ : Type} (answers : σ → Exchange I → σ → Prop)
    (others : σ → σ → Prop) : σ → List (Exchange I) → σ → Prop where
  | refl (state : σ) : Serves answers others state [] state
  | meanwhile {state changed final : σ} {transcript : List (Exchange I)}
      (change : others state changed) (tail : Serves answers others changed transcript final) :
      Serves answers others state transcript final
  | answered {state next final : σ} {exchange : Exchange I} {transcript : List (Exchange I)}
      (reply : answers state exchange next) (tail : Serves answers others next transcript final) :
      Serves answers others state (exchange :: transcript) final

namespace Serves

variable {I : Interface} {σ : Type} {answers : σ → Exchange I → σ → Prop}
  {others : σ → σ → Prop} {state final : σ}

/-- What every answer and every change of others keeps is kept. -/
theorem keeps {transcript : List (Exchange I)}
    (served : Serves answers others state transcript final) {kept : σ → Prop}
    (byOthers : ∀ {before after}, others before after → kept before → kept after)
    (byAnswers : ∀ {before exchange after}, answers before exchange after →
      kept before → kept after)
    (holds : kept state) : kept final := by
  induction served with
  | refl => exact holds
  | meanwhile change _ ih => exact ih (byOthers change holds)
  | answered reply _ ih => exact ih (byAnswers reply holds)

/-- What is served up to a state goes on from there. -/
theorem append {between : σ} {first second : List (Exchange I)}
    (served : Serves answers others state first between)
    (followed : Serves answers others between second final) :
    Serves answers others state (first ++ second) final := by
  induction served with
  | refl => exact followed
  | meanwhile change _ ih => exact .meanwhile change (ih followed)
  | answered reply _ ih => exact .answered reply (ih followed)

/-- A first exchange is answered after some changes of others. -/
theorem exists_answered {exchange : Exchange I} {transcript : List (Exchange I)}
    (served : Serves answers others state (exchange :: transcript) final) :
    ∃ before after, Serves answers others state [] before ∧ answers before exchange after ∧
      Serves answers others after transcript final := by
  generalize whole : exchange :: transcript = list at served
  induction served with
  | refl => cases whole
  | meanwhile change _ ih =>
    obtain ⟨before, after, waited, reply, tail⟩ := ih whole
    exact ⟨before, after, .meanwhile change waited, reply, tail⟩
  | answered reply tail =>
    cases whole
    exact ⟨_, _, .refl _, reply, tail⟩

/-- The parts of a served transcript are served one after the other. -/
theorem exists_between {first second : List (Exchange I)}
    (served : Serves answers others state (first ++ second) final) :
    ∃ between, Serves answers others state first between ∧
      Serves answers others between second final := by
  induction first generalizing state with
  | nil => exact ⟨state, .refl _, served⟩
  | cons exchange rest ih =>
    obtain ⟨before, after, waited, reply, tail⟩ := exists_answered served
    obtain ⟨between, served, followed⟩ := ih tail
    exact ⟨between, waited.append (.answered reply served), followed⟩

/-- A part of a served transcript is served, and so is what stands on both sides. -/
theorem exists_within {first part second : List (Exchange I)}
    (served : Serves answers others state (first ++ part ++ second) final) :
    ∃ start stop, Serves answers others state first start ∧
      Serves answers others start part stop ∧ Serves answers others stop second final := by
  obtain ⟨stop, upTo, followed⟩ := served.exists_between
  obtain ⟨start, before, within⟩ := upTo.exists_between
  exact ⟨start, stop, before, within, followed⟩

end Serves

end ManifestVariables
