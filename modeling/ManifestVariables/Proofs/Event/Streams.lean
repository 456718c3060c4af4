import ManifestVariables.Event.Bus

/-!
# What receivers are given

A receiver that is asked for the next event takes messages out of the bus, one by one, until one of
them is for it: `Bus.turn` takes one message, and `Bus.receive` goes on from turn to turn
(`Bus.receive_eq_turns`). A receiver that is drained is asked again until it would have to wait
(`Bus.Drains`), which gives it a notice if it fell behind and the events that are retained
(`Bus.drains_iff`).

While events are published, receivers come and go and the bus is closed, a receiver for one
deployment is given what a receiver for all events is given, less the events of other deployments
(`Bus.delivers_own_iff`).
-/

namespace ManifestVariables

/-- What a receiver is given that asks for the next event. -/
abbrev Delivery := Except BusError Event

/-- Whether the receiver would have to wait for more. -/
def Delivery.isLast : Delivery → Bool
  | .error .empty | .error .closed => true
  | _ => false

/-- Whether a receiver for one deployment is given it as well. Notices are for all. -/
def Delivery.isFor (deployment : String) : Delivery → Bool
  | .ok event => event.deployment = deployment
  | .error _ => true

namespace Bus

variable {bus : Bus} {receiver after : Receiver} {given : List Delivery} {deployment : String}

/-- What a receiver is told that has had all events. -/
def ending (bus : Bus) : BusError :=
  if bus.closed then .closed else .empty

/-- The events that a receiver has not had, those that are dropped included. -/
def waiting (bus : Bus) (receiver : Receiver) : List Event :=
  (bus.published.drop receiver.position).filter receiver.accepts

/-! ### One event -/

/-- One message taken out of the bus by a receiver, which is given nothing if the message is an
event that it does not accept. -/
def turn (bus : Bus) (receiver : Receiver) : List Delivery × Receiver :=
  let taken := bus.receive { receiver with deployment := none }
  (match taken.1 with
    | .ok event => if receiver.accepts event then [.ok event] else []
    | .error error => [.error error], { receiver with position := taken.2.position })

/-- The events after the first of those that are left. -/
theorem left_of_drop_eq_cons {events rest : List Event} {event : Event} {position : Nat}
    (left : events.drop position = event :: rest) :
    events.length - rest.length = position + 1 ∧ events.drop (position + 1) = rest := by
  constructor
  · have counted := congrArg List.length left
    simp only [List.length_drop, List.length_cons] at counted
    omega
  · rw [← List.tail_drop, left, List.tail_cons]

theorem turn_of_behind (behind : receiver.position < bus.dropped) : bus.turn receiver =
    ([.error (.lagged (bus.dropped - receiver.position))],
      { receiver with position := bus.dropped }) := by
  simp [turn, receive, behind]

theorem turn_of_cons {event : Event} {rest : List Event}
    (retained : ¬ receiver.position < bus.dropped)
    (left : bus.published.drop receiver.position = event :: rest) : bus.turn receiver =
      (if receiver.accepts event then [.ok event] else [],
        { receiver with position := receiver.position + 1 }) := by
  simp [turn, receive, retained, left, Receiver.accepts, (left_of_drop_eq_cons left).1]

theorem turn_of_nil (retained : ¬ receiver.position < bus.dropped)
    (left : bus.published.drop receiver.position = []) : bus.turn receiver =
      ([.error bus.ending], { receiver with position := bus.published.length }) := by
  simp [turn, receive, retained, left, ending]

/-- Asking for the next event goes on from turn to turn until one gives something. -/
theorem receive_eq_turns (bus : Bus) (receiver : Receiver) :
    bus.receive receiver = match bus.turn receiver with
      | (delivery :: _, next) => (delivery, next)
      | ([], next) => bus.receive next := by
  by_cases behind : receiver.position < bus.dropped
  · rw [turn_of_behind behind]
    simp [receive, behind]
  · cases left : bus.published.drop receiver.position with
    | nil =>
      rw [turn_of_nil behind left]
      simp [receive, behind, left, ending]
    | cons event rest =>
      obtain ⟨position, next⟩ := left_of_drop_eq_cons left
      rw [turn_of_cons behind left]
      by_cases accepted : receiver.accepts event = true
      · simp [receive, behind, left, accepted, position]
      · have still : ¬ receiver.position + 1 < bus.dropped := by omega
        have same : Receiver.accepts { receiver with position := receiver.position + 1 } =
            receiver.accepts := rfl
        simp [receive, behind, left, accepted, still, next, same]

/-- What asking for the next event comes to. -/
inductive Receiving (bus : Bus) (receiver : Receiver) : Delivery → Receiver → Prop where
  /-- The oldest events that the receiver has not had are dropped. -/
  | behind (behind : receiver.position < bus.dropped) :
      Receiving bus receiver (.error (.lagged (bus.dropped - receiver.position)))
        { receiver with position := bus.dropped }
  | event {event : Event} {position : Nat} (retained : bus.dropped ≤ receiver.position)
      (later : receiver.position < position)
      (first : bus.waiting receiver = event :: bus.waiting { receiver with position }) :
      Receiving bus receiver (.ok event) { receiver with position }
  | done (retained : bus.dropped ≤ receiver.position) (none : bus.waiting receiver = []) :
      Receiving bus receiver (.error bus.ending) { receiver with position := bus.published.length }

theorem waiting_of_nil (left : bus.published.drop receiver.position = []) :
    bus.waiting receiver = [] := by
  rw [waiting, left, List.filter_nil]

/-- An event that is waiting is accepted, and the others wait behind it. -/
theorem waiting_of_cons {event : Event} {rest : List Event}
    (left : bus.published.drop receiver.position = event :: rest) :
    bus.waiting receiver = (if receiver.accepts event then [event] else []) ++
      bus.waiting { receiver with position := receiver.position + 1 } := by
  have same : Receiver.accepts { receiver with position := receiver.position + 1 } =
      receiver.accepts := rfl
  rw [waiting, waiting, left, (left_of_drop_eq_cons left).2, same, List.filter_cons]
  split <;> rfl

/-- An event of others makes no difference to what asking comes to. -/
theorem Receiving.skip {delivery : Delivery} (retained : bus.dropped ≤ receiver.position)
    (same : bus.waiting receiver =
      bus.waiting { receiver with position := receiver.position + 1 })
    (next : Receiving bus { receiver with position := receiver.position + 1 } delivery after) :
    Receiving bus receiver delivery after := by
  cases next with
  | behind behind =>
    simp only at behind
    omega
  | event _ later first => exact .event retained (Nat.lt_of_succ_lt later) (same.trans first)
  | done _ none => exact .done retained (same.trans none)

theorem receiving (bus : Bus) (receiver : Receiver) :
    Receiving bus receiver (bus.receive receiver).1 (bus.receive receiver).2 := by
  rw [receive_eq_turns]
  by_cases behind : receiver.position < bus.dropped
  · rw [turn_of_behind behind]
    exact .behind behind
  · have retained := Nat.not_lt.mp behind
    cases left : bus.published.drop receiver.position with
    | nil =>
      rw [turn_of_nil behind left]
      exact .done retained (waiting_of_nil left)
    | cons event rest =>
      have passed := waiting_of_cons left
      rw [turn_of_cons behind left]
      by_cases accepted : receiver.accepts event = true
      · rw [if_pos accepted] at passed ⊢
        exact .event retained (Nat.lt_succ_self _) passed
      · have within : receiver.position < bus.published.length := by
          have counted := (left_of_drop_eq_cons left).1
          omega
        rw [if_neg accepted] at passed ⊢
        exact (receiving bus { receiver with position := receiver.position + 1 }).skip retained passed
termination_by bus.published.length - receiver.position

/-- A receiver asks for events until it would have to wait. -/
inductive Drains (bus : Bus) : Receiver → List Delivery → Receiver → Prop where
  | last {receiver after : Receiver} {delivery : Delivery}
      (asked : bus.receive receiver = (delivery, after)) (last : delivery.isLast = true) :
      Drains bus receiver [delivery] after
  | goesOn {receiver between after : Receiver} {delivery : Delivery} {given : List Delivery}
      (asked : bus.receive receiver = (delivery, between)) (more : delivery.isLast = false)
      (rest : Drains bus between given after) : Drains bus receiver (delivery :: given) after

theorem isLast_ending (bus : Bus) : Delivery.isLast (.error bus.ending) = true := by
  unfold ending
  split <;> rfl

theorem Drains.unique {other : List Delivery} {later : Receiver}
    (drained : Drains bus receiver given after) (again : Drains bus receiver other later) :
    given = other ∧ after = later := by
  induction drained generalizing other later with
  | last asked last =>
    cases again with
    | last askedToo =>
      obtain ⟨rfl, rfl⟩ := Prod.mk.inj (asked.symm.trans askedToo)
      exact ⟨rfl, rfl⟩
    | goesOn askedToo more =>
      obtain ⟨rfl, rfl⟩ := Prod.mk.inj (asked.symm.trans askedToo)
      cases last.symm.trans more
  | goesOn asked more _ ih =>
    cases again with
    | last askedToo last =>
      obtain ⟨rfl, rfl⟩ := Prod.mk.inj (asked.symm.trans askedToo)
      cases more.symm.trans last
    | goesOn askedToo _ rest =>
      obtain ⟨rfl, rfl⟩ := Prod.mk.inj (asked.symm.trans askedToo)
      obtain ⟨rfl, rfl⟩ := ih rest
      exact ⟨rfl, rfl⟩

/-- A receiver that did not fall behind is given the events that wait for it. -/
theorem drains_waiting (retained : bus.dropped ≤ receiver.position) :
    Drains bus receiver ((bus.waiting receiver).map .ok ++ [.error bus.ending])
      { receiver with position := bus.published.length } := by
  induction events : bus.waiting receiver generalizing receiver with
  | nil =>
    have received := receiving bus receiver
    cases asked : bus.receive receiver with | mk delivery next =>
    rw [asked] at received
    cases received with
    | behind behind => omega
    | event _ _ first => cases first.symm.trans events
    | done => exact .last asked (isLast_ending bus)
  | cons event rest ih =>
    have received := receiving bus receiver
    cases asked : bus.receive receiver with | mk delivery next =>
    rw [asked] at received
    cases received with
    | behind behind => omega
    | done _ none => cases none.symm.trans events
    | event _ later first =>
      obtain ⟨rfl, others⟩ := List.cons.inj (first.symm.trans events)
      exact .goesOn asked rfl (ih (Nat.le_trans retained (Nat.le_of_lt later)) others)

/-- A receiver that is drained is told what it missed and given the events that are left. -/
theorem drains_iff : Drains bus receiver given after ↔
    given = (bus.drain receiver).1 ++ [.error bus.ending] ∧ after = (bus.drain receiver).2 := by
  have drained : Drains bus receiver ((bus.drain receiver).1 ++ [.error bus.ending])
      (bus.drain receiver).2 := by
    by_cases behind : receiver.position < bus.dropped
    · have missed : bus.dropped - receiver.position ≠ 0 := by omega
      have start : max receiver.position bus.dropped = bus.dropped := by omega
      have asked : bus.receive receiver =
          (.error (.lagged (bus.dropped - receiver.position)),
            { receiver with position := bus.dropped }) := by
        simp [receive, behind]
      simp only [drain, if_neg missed, start]
      exact .goesOn asked rfl (drains_waiting (Nat.le_refl _))
    · have missed : bus.dropped - receiver.position = 0 := by omega
      have start : max receiver.position bus.dropped = receiver.position := by omega
      simp only [drain, if_pos missed, start]
      exact drains_waiting (Nat.not_lt.mp behind)
  exact ⟨fun again => again.unique drained, fun ⟨same, sameAfter⟩ => same ▸ sameAfter ▸ drained⟩

/-! ### Whole streams -/

/-- What others do to a bus. -/
inductive Change where
  | publish (event : Event)
  | subscribe (deployment : Option String)
  | unsubscribe
  | close

/-- The bus after a change. -/
def apply (bus : Bus) : Change → Bus
  | .publish event => bus.publish event
  | .subscribe deployment => (bus.subscribe deployment).2
  | .unsubscribe => bus.unsubscribe
  | .close => bus.close

/-- What happens next. A receiver may be interrupted between two turns. -/
inductive Moment where
  | change (change : Change)
  /-- Receivers take one message. -/
  | turn
  /-- Receivers take all they can without waiting. -/
  | drain

/-- What a receiver is given each time that it takes messages. -/
inductive Delivers : Bus → Receiver → List Moment → List (List Delivery) → Prop where
  | nil {bus : Bus} {receiver : Receiver} : Delivers bus receiver [] []
  | change {bus : Bus} {receiver : Receiver} {change : Change} {moments : List Moment}
      {stream : List (List Delivery)} (rest : Delivers (bus.apply change) receiver moments stream) :
      Delivers bus receiver (.change change :: moments) stream
  | turn {bus : Bus} {receiver : Receiver} {moments : List Moment}
      {stream : List (List Delivery)} (rest : Delivers bus (bus.turn receiver).2 moments stream) :
      Delivers bus receiver (.turn :: moments) ((bus.turn receiver).1 :: stream)
  | drain {bus : Bus} {receiver after : Receiver} {moments : List Moment} {given : List Delivery}
      {stream : List (List Delivery)} (drained : Drains bus receiver given after)
      (rest : Delivers bus after moments stream) :
      Delivers bus receiver (.drain :: moments) (given :: stream)

/-- The stream of a receiver. -/
def stream (bus : Bus) (receiver : Receiver) : List Moment → List (List Delivery)
  | [] => []
  | .change change :: moments => (bus.apply change).stream receiver moments
  | .turn :: moments => (bus.turn receiver).1 :: bus.stream (bus.turn receiver).2 moments
  | .drain :: moments =>
    ((bus.drain receiver).1 ++ [.error bus.ending]) :: bus.stream (bus.drain receiver).2 moments

theorem delivers_iff {moments : List Moment} {given : List (List Delivery)} :
    Delivers bus receiver moments given ↔ given = bus.stream receiver moments := by
  constructor
  · intro delivers
    induction delivers with
    | nil => rfl
    | change _ ih => exact ih
    | turn _ ih => rw [ih, stream]
    | drain drained _ ih =>
      obtain ⟨rfl, rfl⟩ := drains_iff.mp drained
      rw [ih, stream]
  · rintro rfl
    induction moments generalizing bus receiver with
    | nil => exact .nil
    | cons moment rest ih =>
      cases moment with
      | change change => exact .change ih
      | turn => exact .turn ih
      | drain => exact .drain (drains_iff.mpr ⟨rfl, rfl⟩) ih

/-! ### One deployment -/

/-- In one turn, two receivers in the same place take the same message. -/
theorem turn_own (bus : Bus) (position : Nat) (deployment : String) :
    bus.turn ⟨position, some deployment⟩ =
      ((bus.turn ⟨position, none⟩).1.filter (Delivery.isFor deployment),
        ⟨(bus.turn ⟨position, none⟩).2.position, some deployment⟩) := by
  by_cases behind : position < bus.dropped
  · rw [turn_of_behind behind, turn_of_behind behind]
    rfl
  · cases left : bus.published.drop position with
    | nil =>
      rw [turn_of_nil behind left, turn_of_nil behind left]
      rfl
    | cons event rest =>
      rw [turn_of_cons behind left, turn_of_cons behind left]
      by_cases own : event.deployment = deployment <;>
        simp [Receiver.accepts, Delivery.isFor, own]

/-- Drained at the same moment, they miss the same and are left in the same place. -/
theorem drain_own (bus : Bus) (position : Nat) (deployment : String) :
    bus.drain ⟨position, some deployment⟩ =
      ((bus.drain ⟨position, none⟩).1.filter (Delivery.isFor deployment),
        ⟨(bus.drain ⟨position, none⟩).2.position, some deployment⟩) := by
  have notice (missed : Nat) : List.filter (Delivery.isFor deployment)
      (if missed = 0 then [] else [.error (.lagged missed)]) =
        if missed = 0 then [] else [.error (.lagged missed)] := by
    split <;> rfl
  have events (left : List Event) :
      ((left.filter fun event => Receiver.accepts ⟨position, none⟩ event).map Except.ok).filter
          (Delivery.isFor deployment) =
        (left.filter fun event => Receiver.accepts ⟨position, some deployment⟩ event).map
          Except.ok := by
    rw [List.filter_map, List.filter_filter]
    simp [Receiver.accepts, Delivery.isFor]
  simp only [drain, List.filter_append, notice, events]

/-- The stream of a receiver for one deployment, from any place. -/
theorem stream_own (bus : Bus) (position : Nat) (deployment : String) (moments : List Moment) :
    bus.stream ⟨position, some deployment⟩ moments =
      (bus.stream ⟨position, none⟩ moments).map (List.filter (Delivery.isFor deployment)) := by
  induction moments generalizing bus position with
  | nil => rfl
  | cons moment rest ih =>
    cases moment with
    | change change => exact ih _ _
    | turn => rw [stream, stream, List.map_cons, turn_own, ih]; rfl
    | drain =>
      have ending : List.filter (Delivery.isFor deployment) [.error bus.ending] =
          [.error bus.ending] := rfl
      rw [stream, stream, List.map_cons, List.filter_append, ending, drain_own, ih]
      rfl

/-- Two receivers that are subscribed at the same moment and take messages at the same moments, one
of all events and one of the events of a deployment: each has one stream, and the second is the
first one without the events of other deployments. Every notice is in its place. What a drained
receiver is given are the published events that are retained and that it accepts, after a notice
of how many it missed. -/
theorem delivers_own_iff (bus : Bus) (deployment : String) (moments : List Moment) :
    let full := bus.subscribe none
    let own := full.2.subscribe (some deployment)
    (∀ given, Delivers own.2 full.1 moments given ↔ given = own.2.stream full.1 moments) ∧
      (∀ given, Delivers own.2 own.1 moments given ↔
        given = (own.2.stream full.1 moments).map (List.filter (Delivery.isFor deployment))) ∧
      ∀ (state : Bus) (receiver after : Receiver) (given : List Delivery),
        let missed := state.dropped - receiver.position
        let retained := state.published.drop (max receiver.position state.dropped)
        Drains state receiver given after ↔
          given = (if missed = 0 then [] else [.error (.lagged missed)]) ++
              (retained.filter receiver.accepts).map .ok ++ [.error state.ending] ∧
            after = { receiver with position := state.published.length } := by
  intro full own
  have filtered : own.2.stream own.1 moments =
      (own.2.stream full.1 moments).map (List.filter (Delivery.isFor deployment)) :=
    stream_own own.2 bus.published.length deployment moments
  refine ⟨fun given => delivers_iff, fun given => ?_, fun state receiver after given => drains_iff⟩
  rw [delivers_iff, filtered]

/-- The oldest of three events is dropped, which both receivers are told. -/
example (event : Event) :
    let bus : Bus := ⟨2, [event, { event with deployment := "b" }, { event with deployment := "a" }],
      2, false⟩
    bus.stream ⟨0, none⟩ [.drain] = [[.error (.lagged 1), .ok { event with deployment := "b" },
        .ok { event with deployment := "a" }, .error .empty]] ∧
      bus.stream ⟨0, some "a"⟩ [.drain] = [[.error (.lagged 1), .ok { event with deployment := "a" },
        .error .empty]] :=
  ⟨rfl, rfl⟩

end Bus

end ManifestVariables
