import DevRelay.Core.Error
import DevRelay.Lib.Run

/-!
# The event log of the agent

Sequence numbers, cursors and the gap detector of `events.rs`, and
`AgentEventLog` with its subscribers.  Every publish and every subscription runs
under the lock of the log; a subscriber has a channel of its own, which its
connection empties at its own pace, the replay first.
-/

namespace DevRelay.Agent

open DevRelay.Lib DevRelay.Core

/-! ## Sequence numbers -/

/-- A sequence number is never zero. -/
structure EventSequence where
  value : UInt64
  nonzero : value ≠ 0
  deriving DecidableEq

namespace EventSequence

def new (value : UInt64) : Option EventSequence :=
  if h : value = 0 then none else some ⟨value, h⟩

def get (self : EventSequence) : UInt64 := self.value

end EventSequence

/-- `u64::checked_add` -/
def checkedAdd (a b : UInt64) : Option UInt64 :=
  if a.toNat + b.toNat < 2 ^ 64 then some (a + b) else none

def EventSequence.next (self : EventSequence) : Option EventSequence :=
  match checkedAdd self.value 1 with
  | some value => EventSequence.new value
  | none => none

theorem toNat_of_checkedAdd {a b c : UInt64} (h : checkedAdd a b = some c) :
    c.toNat = a.toNat + b.toNat := by
  unfold checkedAdd at h
  split at h
  · rename_i hlt
    cases h
    rw [UInt64.toNat_add]
    omega
  · cases h

theorem checkedAdd_of_lt {a b : UInt64} (h : a.toNat + b.toNat < 2 ^ 64) :
    checkedAdd a b = some (a + b) := if_pos h

/-! ## Envelopes -/

def EVENT_SCHEMA_VERSION : UInt32 := 1

inductive EventType where
  | workspaceStateChanged
  | snapshotLocalCreated
  | snapshotApplyStarted
  | snapshotApplyVerified
  | handoffStateChanged
  | protectionStatusChanged
  | sessionDiverged
  | securityBlocked
  | quotaWarning
  | environmentProgress
  deriving DecidableEq, Repr

/-- A payload with its type and what serialising it gives. -/
structure TypedEventPayload (V : Type) where
  eventType : EventType
  toValue : Except DevRelayError V

structure EventEnvelope (V : Type) where
  schemaVersion : UInt32
  sequence : EventSequence
  occurredAtUnixMillis : UInt64
  eventType : EventType
  payload : V

variable {V : Type}

def EventEnvelope.newAt (sequence : EventSequence) (occurredAtUnixMillis : UInt64)
    (eventType : EventType) (payload : V) : EventEnvelope V where
  schemaVersion := EVENT_SCHEMA_VERSION
  sequence := sequence
  occurredAtUnixMillis := occurredAtUnixMillis
  eventType := eventType
  payload := payload

/-- `with_typed_payload`, with the clock it reads. -/
def EventEnvelope.withTypedPayload (now : UInt64) (sequence : EventSequence)
    (payload : TypedEventPayload V) : Except DevRelayError (EventEnvelope V) := do
  let value ← payload.toValue
  pure (EventEnvelope.newAt sequence now payload.eventType value)

/-! ## Cursors and gaps -/

structure EventReplayCursor where
  afterSequence : Option EventSequence
  deriving DecidableEq

namespace EventReplayCursor

def fromStart : EventReplayCursor := ⟨none⟩

def after (sequence : EventSequence) : EventReplayCursor := ⟨some sequence⟩

def accepts (self : EventReplayCursor) (sequence : EventSequence) : Bool :=
  match self.afterSequence with
  | some afterSequence => sequence.value > afterSequence.value
  | none => true

end EventReplayCursor

structure EventSequenceGap where
  expectedAfter : EventSequence
  actualNext : EventSequence
  deriving DecidableEq

structure EventGapDetector where
  cursor : EventReplayCursor
  deriving DecidableEq

namespace EventGapDetector

def observeSequence (self : EventGapDetector) (sequence : EventSequence) :
    Except EventSequenceGap EventGapDetector :=
  match self.cursor.afterSequence with
  | some expectedAfter =>
    if sequence ≠ expectedAfter.next.getD expectedAfter then
      .error ⟨expectedAfter, sequence⟩
    else
      .ok ⟨.after sequence⟩
  | none => .ok ⟨.after sequence⟩

def observe (self : EventGapDetector) (event : EventEnvelope V) :
    Except EventSequenceGap EventGapDetector := self.observeSequence event.sequence

/-- A client that hands every event it receives to its detector. -/
def observeAll (self : EventGapDetector) : List (EventEnvelope V) →
    Except EventSequenceGap EventGapDetector
  | [] => .ok self
  | event :: events =>
    match self.observe event with
    | .ok detector => detector.observeAll events
    | .error gap => .error gap

end EventGapDetector

/-! ## The log and its subscribers -/

/-- Subscribers are named by their client. -/
structure AgentEventLogInner (V : Type) where
  nextSequence : UInt64
  events : List (EventEnvelope V)
  subscribers : List Nat

def AgentEventLogInner.default : AgentEventLogInner V := ⟨1, [], []⟩

def AgentEventLogInner.currentSequence (self : AgentEventLogInner V) : Option EventSequence :=
  if self.nextSequence = 1 then none else EventSequence.new (self.nextSequence - 1)

/-- The connection of a subscriber: what it still has to replay, what waits in
its channel, and what it has written so far.  A connection that has ended has
dropped its end of the channel. -/
structure EventClient (V : Type) where
  cursor : EventReplayCursor
  replay : List (EventEnvelope V)
  currentSequence : Option EventSequence
  channel : List (EventEnvelope V)
  received : List (EventEnvelope V)
  connected : Bool

structure EventStream (V : Type) where
  inner : AgentEventLogInner V
  clients : List (EventClient V)

namespace EventStream

def start : EventStream V := ⟨.default, []⟩

def isConnected (self : EventStream V) (client : Nat) : Bool :=
  (self.clients[client]?).any EventClient.connected

/-- `sender.send(event)` for every subscriber; a sender whose receiver is gone is
not retained. -/
def broadcast (self : EventStream V) (event : EventEnvelope V) : EventStream V where
  inner := { self.inner with
    events := self.inner.events ++ [event]
    subscribers := self.inner.subscribers.filter self.isConnected }
  clients := self.clients.mapIdx fun i client =>
    if i ∈ self.inner.subscribers ∧ client.connected then
      { client with channel := client.channel ++ [event] }
    else
      client

def sequenceExhausted : DevRelayError := .config "event sequence exhausted"

def publish (self : EventStream V) (now : UInt64) (payload : TypedEventPayload V) :
    Except DevRelayError (EventEnvelope V) × EventStream V :=
  match EventSequence.new self.inner.nextSequence,
      checkedAdd self.inner.nextSequence 1 with
  | some sequence, some nextSequence =>
    -- the number is taken before the payload is serialised
    let numbered := { self with inner := { self.inner with nextSequence } }
    match EventEnvelope.withTypedPayload now sequence payload with
    | .ok event => (.ok event, numbered.broadcast event)
    | .error e => (.error e, numbered)
  | _, _ => (.error sequenceExhausted, self)

def subscribe (self : EventStream V) (cursor : EventReplayCursor) : EventStream V where
  inner := { self.inner with
    subscribers := self.inner.subscribers ++ [self.clients.length] }
  clients := self.clients ++ [{
    cursor := cursor
    replay := self.inner.events.filter fun event => cursor.accepts event.sequence
    currentSequence := self.inner.currentSequence
    channel := []
    received := []
    connected := true }]

/-- The next message of the connection: the replay, then the channel. -/
def writeNext (client : EventClient V) : EventClient V :=
  if client.connected then
    match client.replay, client.channel with
    | event :: replay, _ => { client with replay, received := client.received ++ [event] }
    | [], event :: channel =>
      { client with channel, received := client.received ++ [event] }
    | [], [] => client
  else
    client

def deliver (self : EventStream V) (client : Nat) : EventStream V :=
  { self with clients := self.clients.modify client writeNext }

def disconnect (self : EventStream V) (client : Nat) : EventStream V :=
  { self with
    clients := self.clients.modify client fun client => { client with connected := false } }

end EventStream

inductive EventMove (V : Type) where
  | publish (now : UInt64) (payload : TypedEventPayload V)
  | subscribe (cursor : EventReplayCursor)
  | deliver (client : Nat)
  | disconnect (client : Nat)

def EventStream.step (self : EventStream V) : EventMove V → EventStream V
  | .publish now payload => (self.publish now payload).2
  | .subscribe cursor => self.subscribe cursor
  | .deliver client => self.deliver client
  | .disconnect client => self.disconnect client

/-- The log and its clients after the first `n` moves. -/
abbrev streamAt (moves : List (EventMove V)) (n : Nat) : EventStream V :=
  stateAt EventStream.step .start moves n

end DevRelay.Agent
