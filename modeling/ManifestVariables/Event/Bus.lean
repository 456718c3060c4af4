import ManifestVariables.Event.Basic

/-!
# The event bus

Audit events are handed to any number of receivers. The bus retains the latest
events up to its capacity; a receiver that is further behind is told once how many
events it missed and goes on with the oldest one retained. An event that nobody is
there to receive is lost. A receiver is a position in the sequence of published
events, and the events it does not accept are passed over.
-/

namespace ManifestVariables

/-- Why a receiver was given no event. -/
inductive BusError where
  | closed
  | empty
  /-- The receiver fell behind and so many events were dropped. -/
  | lagged (missed : Nat)
deriving DecidableEq, Repr

/-- The text shown for a bus error. -/
def BusError.message : BusError → String
  | closed => "Event bus is closed"
  | empty => "No events available"
  | lagged missed => s!"Receiver lagged by {missed} events (events were dropped)"

/-- The events that have been published, and who may receive them. -/
structure Bus where
  /-- How many events are retained, a power of two. -/
  capacity : Nat
  published : List Event
  receivers : Nat
  closed : Bool

/-- A place in the sequence of events, and the only deployment whose events are
accepted, if there is one. -/
structure Receiver where
  position : Nat
  deployment : Option String
deriving DecidableEq, Repr

/-- Whether a receiver is for the event. -/
def Receiver.accepts (receiver : Receiver) (event : Event) : Bool :=
  match receiver.deployment with
  | some deployment => event.deployment = deployment
  | none => true

namespace Bus

/-- The capacity of a bus for which none is chosen. -/
def defaultCapacity : Nat := 1000

/-- A bus that retains at least so many events. A bus that retains none cannot be
made. -/
def ofCapacity? (capacity : Nat) : Option Bus :=
  if capacity = 0 then none
  else some { capacity := capacity.nextPowerOfTwo, published := [], receivers := 0, closed := false }

/-- How many events are no longer retained. -/
def dropped (bus : Bus) : Nat :=
  bus.published.length - bus.capacity

/-- The bus after an event. -/
def publish (bus : Bus) (event : Event) : Bus :=
  if bus.receivers = 0 || bus.closed then bus
  else { bus with published := bus.published ++ [event] }

/-- A receiver of the events from here on. -/
def subscribe (bus : Bus) (deployment : Option String) : Receiver × Bus :=
  (⟨bus.published.length, deployment⟩, { bus with receivers := bus.receivers + 1 })

/-- The bus once a receiver is gone. -/
def unsubscribe (bus : Bus) : Bus :=
  { bus with receivers := bus.receivers - 1 }

/-- The bus once nothing more can be published. -/
def close (bus : Bus) : Bus :=
  { bus with closed := true }

/-- The next event for a receiver, and the receiver behind it. Events that it does
not accept are used up. -/
def receive (bus : Bus) (receiver : Receiver) : Except BusError Event × Receiver :=
  if receiver.position < bus.dropped then
    (.error (.lagged (bus.dropped - receiver.position)), { receiver with position := bus.dropped })
  else
    let waiting := bus.published.drop receiver.position
    match waiting.dropWhile fun event => !receiver.accepts event with
    | event :: rest =>
      (.ok event, { receiver with position := bus.published.length - rest.length })
    | [] =>
      (.error (if bus.closed then .closed else .empty),
        { receiver with position := bus.published.length })

/-- Everything a receiver can be given without waiting: events, and at most one
notice that it fell behind. -/
def drain (bus : Bus) (receiver : Receiver) : List (Except BusError Event) × Receiver :=
  let missed := bus.dropped - receiver.position
  let events := (bus.published.drop (max receiver.position bus.dropped)).filter receiver.accepts
  ((if missed = 0 then [] else [.error (.lagged missed)]) ++ events.map .ok,
    { receiver with position := bus.published.length })

end Bus

end ManifestVariables
