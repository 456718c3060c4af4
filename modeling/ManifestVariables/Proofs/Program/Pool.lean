import Mathlib.Logic.Function.Basic
import ManifestVariables.Proofs.Program.Transcript

/-!
# Programs that take turns

A pool is a state that answers questions and workers that are each left with a
program. In a turn, one worker has one exchange with the state; outside of all turns
others may change the state as well. `Pool.Steps` relates pools by any order of turns.
What a worker sees of it is a transcript of its own, served while others change the
state (`Pool.Steps.reaches`, `Pool.Steps.serves`), so what holds of one program under
all interference holds of every worker of a pool.
-/

namespace ManifestVariables

/-- A state and the programs that are left to its workers. -/
structure Pool (I : Interface) (σ ι α : Type) where
  state : σ
  worker : ι → Program I α

namespace Pool

variable {I : Interface} {σ ι α : Type} {answers : σ → Exchange I → σ → Prop}
  {others : σ → σ → Prop}

/-- One worker has one exchange with the state. -/
structure Turn (answers : σ → Exchange I → σ → Prop) (pool : Pool I σ ι α)
    (turn : ι × Exchange I) (next : Pool I σ ι α) : Prop where
  reply : answers pool.state turn.2 next.state
  goesOn : Program.Reaches (pool.worker turn.1) [turn.2] (next.worker turn.1)
  rest : ∀ other, other ≠ turn.1 → next.worker other = pool.worker other

/-- Turns of workers in any order, and changes by others between them. -/
inductive Steps (answers : σ → Exchange I → σ → Prop) (others : σ → σ → Prop) :
    Pool I σ ι α → List (ι × Exchange I) → Pool I σ ι α → Prop where
  | refl (pool : Pool I σ ι α) : Steps answers others pool [] pool
  | meanwhile {pool final : Pool I σ ι α} {state : σ} {history : List (ι × Exchange I)}
      (change : others pool.state state)
      (tail : Steps answers others { pool with state } history final) :
      Steps answers others pool history final
  | turn {pool next final : Pool I σ ι α} {turn : ι × Exchange I}
      {history : List (ι × Exchange I)} (taken : Turn answers pool turn next)
      (tail : Steps answers others next history final) :
      Steps answers others pool (turn :: history) final

theorem Steps.append {pool between final : Pool I σ ι α} {first second : List (ι × Exchange I)}
    (steps : Steps answers others pool first between)
    (followed : Steps answers others between second final) :
    Steps answers others pool (first ++ second) final := by
  induction steps with
  | refl => exact followed
  | meanwhile change _ ih => exact .meanwhile change (ih followed)
  | turn taken _ ih => exact .turn taken (ih followed)

/-- The parts of a history are gone through one after the other. -/
theorem Steps.exists_between {pool final : Pool I σ ι α} {first second : List (ι × Exchange I)}
    (steps : Steps answers others pool (first ++ second) final) :
    ∃ between, Steps answers others pool first between ∧
      Steps answers others between second final := by
  generalize whole : first ++ second = history at steps
  induction steps generalizing first with
  | refl pool =>
    obtain ⟨rfl, rfl⟩ := List.append_eq_nil_iff.mp whole
    exact ⟨pool, .refl _, .refl _⟩
  | meanwhile change _ ih =>
    obtain ⟨between, upTo, followed⟩ := ih whole
    exact ⟨between, .meanwhile change upTo, followed⟩
  | @turn pool _ _ _ _ taken tail ih =>
    cases first with
    | nil =>
      obtain rfl : second = _ := whole
      exact ⟨pool, .refl _, .turn taken tail⟩
    | cons turn rest =>
      obtain ⟨rfl, more⟩ := List.cons.inj whole
      obtain ⟨between, upTo, followed⟩ := ih more
      exact ⟨between, .turn taken upTo, followed⟩

/-- What others may do they may also do where they may do more. -/
theorem Steps.mono {pool final : Pool I σ ι α} {history : List (ι × Exchange I)}
    {more : σ → σ → Prop} (steps : Steps answers others pool history final)
    (wider : ∀ {before after}, others before after → more before after) :
    Steps answers more pool history final := by
  induction steps with
  | refl => exact .refl _
  | meanwhile change _ ih => exact .meanwhile (wider change) ih
  | turn taken _ ih => exact .turn taken ih

/-- The state answers all exchanges in the order of the turns. -/
theorem Steps.serves_all {pool final : Pool I σ ι α} {history : List (ι × Exchange I)}
    (steps : Steps answers others pool history final) :
    Serves answers others pool.state (history.map Prod.snd) final.state := by
  induction steps with
  | refl => exact .refl _
  | meanwhile change _ ih => exact .meanwhile change ih
  | turn taken _ ih => exact .answered taken.reply ih

variable [DecidableEq ι]

/-- The exchanges of one worker. -/
def own (worker : ι) (history : List (ι × Exchange I)) : List (Exchange I) :=
  (history.filter fun turn => turn.1 = worker).map Prod.snd

theorem own_cons_self (worker : ι) (exchange : Exchange I) (history : List (ι × Exchange I)) :
    own worker ((worker, exchange) :: history) = exchange :: own worker history := by
  simp [own]

theorem own_cons_of_ne {worker other : ι} (different : other ≠ worker) (exchange : Exchange I)
    (history : List (ι × Exchange I)) :
    own worker ((other, exchange) :: history) = own worker history := by
  simp [own, different]

theorem own_append (worker : ι) (first second : List (ι × Exchange I)) :
    own worker (first ++ second) = own worker first ++ own worker second := by
  simp [own]

/-- The first exchange of a worker stands somewhere in the history, and its other exchanges
stand behind it. -/
theorem exists_of_own_eq_cons {worker : ι} {history : List (ι × Exchange I)}
    {exchange : Exchange I} {rest : List (Exchange I)}
    (mine : own worker history = exchange :: rest) :
    ∃ before after, history = before ++ (worker, exchange) :: after ∧ own worker after = rest := by
  obtain ⟨⟨taker, _⟩, later, filtered, rfl, rfl⟩ := List.map_eq_cons_iff.mp mine
  obtain ⟨before, after, rfl, _, same, rfl⟩ := List.filter_eq_cons_iff.mp filtered
  obtain rfl : taker = worker := by simpa using same
  exact ⟨before, after, rfl, rfl⟩

theorem mem_own_iff {worker : ι} {history : List (ι × Exchange I)} {exchange : Exchange I} :
    exchange ∈ own worker history ↔ (worker, exchange) ∈ history := by
  simp [own]

theorem own_subset (worker : ι) (history : List (ι × Exchange I)) :
    own worker history ⊆ history.map Prod.snd :=
  List.map_subset _ List.filter_sublist.subset

/-- Each worker is left with what its own exchanges leave of its program. -/
theorem Steps.reaches {pool final : Pool I σ ι α} {history : List (ι × Exchange I)}
    (steps : Steps answers others pool history final) (worker : ι) :
    (pool.worker worker).Reaches (own worker history) (final.worker worker) := by
  induction steps with
  | refl => exact .refl _
  | meanwhile _ _ ih => exact ih
  | @turn _ _ _ turn _ taken _ ih =>
    obtain ⟨taker, exchange⟩ := turn
    by_cases same : taker = worker
    · subst same
      rw [own_cons_self]
      exact taken.goesOn.append ih
    · rw [own_cons_of_ne same, ← taken.rest worker (Ne.symm same)]
      exact ih

/-- To each worker the turns of the other workers are changes by others. -/
theorem Steps.serves {pool final : Pool I σ ι α} {history : List (ι × Exchange I)}
    (steps : Steps answers others pool history final) (worker : ι)
    (byWorkers : ∀ {before exchange after}, answers before exchange after → others before after) :
    Serves answers others pool.state (own worker history) final.state := by
  induction steps with
  | refl => exact .refl _
  | meanwhile change _ ih => exact .meanwhile change ih
  | @turn _ _ _ turn _ taken _ ih =>
    obtain ⟨taker, exchange⟩ := turn
    by_cases same : taker = worker
    · subst same
      rw [own_cons_self]
      exact .answered taken.reply ih
    · rw [own_cons_of_ne same]
      exact .meanwhile (byWorkers taken.reply) ih

/-- Whatever each worker does by itself, every order of turns in which the state answers
is possible. -/
theorem Steps.of_serves {state final : σ} {history : List (ι × Exchange I)}
    {worker rest : ι → Program I α}
    (served : Serves answers others state (history.map Prod.snd) final)
    (reached : ∀ i, (worker i).Reaches (own i history) (rest i)) :
    Steps answers others ⟨state, worker⟩ history ⟨final, rest⟩ := by
  generalize exchanges : history.map Prod.snd = transcript at served
  induction served generalizing history worker with
  | refl =>
    obtain rfl := List.map_eq_nil_iff.mp exchanges
    have same : worker = rest := funext fun i => (reached i).eq_of_nil
    rw [same]
    exact .refl _
  | meanwhile change _ ih => exact .meanwhile change (ih reached exchanges)
  | @answered before after _ _ _ reply _ ih =>
    obtain ⟨⟨taker, exchange⟩, more, rfl, rfl, others⟩ := List.map_eq_cons_iff.mp exchanges
    have mine := reached taker
    rw [own_cons_self] at mine
    obtain ⟨next, goesOn, tail⟩ := mine.exists_of_cons
    -- Only the worker whose turn it is moves on.
    have taken : Turn answers ⟨before, worker⟩ (taker, exchange)
        ⟨after, Function.update worker taker next⟩ := by
      refine ⟨reply, ?_, fun other different => Function.update_of_ne different _ _⟩
      simpa using goesOn
    refine .turn taken (ih ?_ others)
    intro other
    by_cases same : other = taker
    · subst same
      simpa using tail
    · have unchanged := reached other
      rwa [own_cons_of_ne (Ne.symm same), ← Function.update_of_ne same next worker] at unchanged

end Pool

end ManifestVariables
