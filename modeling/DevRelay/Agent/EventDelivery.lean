import DevRelay.Agent.EventLog
import Mathlib.Logic.Function.Iterate

/-!
# What a subscriber receives

Numbers are handed out one by one, so the event `n` of the log has the number
`n`, and what a cursor accepts is the log without its first events.  Replay and
channel of a connection then join at the moment of the subscription.  Two things
break this: a publish that fails after it has taken its number, and a cursor that
is ahead of the log.
-/

namespace DevRelay.Agent

open DevRelay.Lib DevRelay.Core

variable {V : Type}

namespace EventEnvelope

/-- The number of an event, for arithmetic. -/
def number (event : EventEnvelope V) : Nat := event.sequence.value.toNat

end EventEnvelope

namespace EventReplayCursor

/-- The number of the last event before the cursor. -/
def base (self : EventReplayCursor) : Nat :=
  match self.afterSequence with
  | some sequence => sequence.value.toNat
  | none => 0

@[simp] theorem base_after (sequence : EventSequence) :
    (after sequence).base = sequence.value.toNat := rfl

theorem accepts_eq (self : EventReplayCursor) (event : EventEnvelope V) :
    self.accepts event.sequence = decide (self.base < event.number) := by
  unfold accepts base EventEnvelope.number
  cases self.afterSequence with
  | some sequence =>
    simp only [gt_iff_lt, UInt64.lt_iff_toNat_lt]
  | none =>
    have hpos : event.sequence.value.toNat ≠ 0 := by
      intro hzero
      apply event.sequence.nonzero
      apply UInt64.toNat.inj
      rw [hzero]
      rfl
    simp only [eq_comm (a := true), decide_eq_true_eq]
    omega

end EventReplayCursor

/-! ## Numbered lists of events -/

/-- What a cursor accepts of events numbered from `k + 1` on. -/
theorem filter_accepts {events : List (EventEnvelope V)} {k : Nat}
    (hnumbers : events.map EventEnvelope.number = List.range' (k + 1) events.length)
    (cursor : EventReplayCursor) :
    (events.filter fun event => cursor.accepts event.sequence) = events.drop (cursor.base - k) := by
  induction events generalizing k with
  | nil => simp
  | cons event events ih =>
    rw [List.map_cons, List.length_cons, List.range'_succ, List.cons.injEq] at hnumbers
    obtain ⟨hevent, hrest⟩ := hnumbers
    have ih := ih hrest
    rw [List.filter_cons, cursor.accepts_eq, hevent, ih]
    by_cases hlt : cursor.base < k + 1
    · have hzero : cursor.base - k = 0 := by omega
      have hzero' : cursor.base - (k + 1) = 0 := by omega
      simp [hlt, hzero, hzero']
    · have hsucc : cursor.base - k = cursor.base - (k + 1) + 1 := by omega
      simp [hlt, hsucc]

theorem base_next {sequence : EventSequence} {event : EventEnvelope V}
    (hevent : event.number = sequence.value.toNat + 1) :
    sequence.next = some event.sequence := by
  have hbound : event.sequence.value.toNat < 2 ^ 64 := event.sequence.value.toNat_lt
  have hvalue : event.sequence.value.toNat = sequence.value.toNat + 1 := hevent
  have hadd : checkedAdd sequence.value 1 = some event.sequence.value := by
    rw [checkedAdd_of_lt (by rw [UInt64.toNat_one]; omega)]
    congr 1
    apply UInt64.toNat.inj
    rw [UInt64.toNat_add, UInt64.toNat_one]
    omega
  unfold EventSequence.next
  rw [hadd]
  exact dif_neg event.sequence.nonzero

/-- A detector accepts what is numbered on from its cursor. -/
theorem observeAll_contiguous {events : List (EventEnvelope V)} (detector : EventGapDetector)
    (hnumbers : events.map EventEnvelope.number =
      List.range' (detector.cursor.base + 1) events.length) :
    ∃ final, detector.observeAll events = .ok final := by
  induction events generalizing detector with
  | nil => exact ⟨detector, rfl⟩
  | cons event events ih =>
    rw [List.map_cons, List.length_cons, List.range'_succ, List.cons.injEq] at hnumbers
    obtain ⟨hevent, hrest⟩ := hnumbers
    have hobserve : detector.observe event = .ok ⟨.after event.sequence⟩ := by
      unfold EventGapDetector.observe EventGapDetector.observeSequence
      cases hcursor : detector.cursor.afterSequence with
      | none => rfl
      | some sequence =>
        have hbase : detector.cursor.base = sequence.value.toNat := by
          rw [EventReplayCursor.base, hcursor]
        rw [hbase] at hevent
        have hnext := base_next hevent
        simp only [hnext, Option.getD_some, ne_eq, not_true_eq_false, if_false]
    have hnumber : event.sequence.value.toNat = detector.cursor.base + 1 := hevent
    obtain ⟨final, hfinal⟩ := ih ⟨.after event.sequence⟩ (by
      rw [EventReplayCursor.base_after, hnumber]
      exact hrest)
    refine ⟨final, ?_⟩
    rw [EventGapDetector.observeAll, hobserve]
    exact hfinal

/-! ## The guarantee -/

namespace EventClient

def accepted (client : EventClient V) (published : List (EventEnvelope V)) :
    List (EventEnvelope V) :=
  published.filter fun event => client.cursor.accepts event.sequence

/-- Where the client resumes after it lost its connection. -/
def lastCursor (client : EventClient V) : EventReplayCursor :=
  match client.received.getLast? with
  | some event => .after event.sequence
  | none => client.cursor

/-- Everything that was sent to the connection. -/
def stream (client : EventClient V) : List (EventEnvelope V) :=
  client.received ++ (client.replay ++ client.channel)

end EventClient

/-- What the subscribers receive of the published events. -/
structure EventStream.ExactlyOnce (s : EventStream V) : Prop where
  /-- nothing but accepted events, in the order in which they were published -/
  accepted : ∀ client ∈ s.clients, client.received <+: client.accepted s.inner.events
  /-- numbered from the cursor on, without a gap -/
  contiguous : ∀ client ∈ s.clients, client.received.map EventEnvelope.number =
    List.range' (client.cursor.base + 1) client.received.length
  gapFree : ∀ client ∈ s.clients,
    ∃ final, (EventGapDetector.mk client.cursor).observeAll client.received = .ok final
  /-- a connection that is kept alive delivers all of it -/
  complete : ∀ client ∈ s.clients, client.connected = true →
    client.stream = client.accepted s.inner.events ∧
      ∃ k, (EventStream.writeNext^[k] client).received = client.accepted s.inner.events
  /-- a second connection goes on where the first one ended -/
  resumed : ∀ client ∈ s.clients, ∀ next ∈ s.clients, next.connected = true →
    next.cursor = client.lastCursor →
      client.received ++ next.stream = client.accepted s.inner.events

/-- The payload of a publish serialises, and the cursor of a subscription is not
ahead of the log. -/
def EventMove.Orderly (s : EventStream V) : EventMove V → Prop
  | .publish _ payload => ∃ value, payload.toValue = .ok value
  | .subscribe cursor =>
    ∀ sequence, cursor.afterSequence = some sequence →
      sequence.value < s.inner.nextSequence
  | .deliver _ => True
  | .disconnect _ => True

/-! ## The invariant -/

structure EventStream.Numbered (s : EventStream V) : Prop where
  numbers : s.inner.events.map EventEnvelope.number =
    List.range' 1 s.inner.events.length
  next : s.inner.nextSequence.toNat = s.inner.events.length + 1
  cursors : ∀ (i : Nat) (client : EventClient V), s.clients[i]? = some client →
    client.cursor.base ≤ s.inner.events.length
  received : ∀ (i : Nat) (client : EventClient V), s.clients[i]? = some client →
    client.received <+: client.accepted s.inner.events
  connected : ∀ (i : Nat) (client : EventClient V), s.clients[i]? = some client →
    client.connected = true →
      client.stream = client.accepted s.inner.events ∧ i ∈ s.inner.subscribers

theorem numbered_start : (EventStream.start : EventStream V).Numbered where
  numbers := rfl
  next := rfl
  cursors i client h := by simp [EventStream.start] at h
  received i client h := by simp [EventStream.start] at h
  connected i client h := by simp [EventStream.start] at h

section

variable {s : EventStream V}

theorem accepted_append (client : EventClient V) (published : List (EventEnvelope V))
    (event : EventEnvelope V) (hlt : client.cursor.base < event.number) :
    client.accepted (published ++ [event]) = client.accepted published ++ [event] := by
  have haccepts : client.cursor.accepts event.sequence = true := by
    rw [client.cursor.accepts_eq]
    exact decide_eq_true hlt
  unfold EventClient.accepted
  rw [List.filter_append, List.filter_cons, haccepts]
  rfl

theorem EventStream.Numbered.broadcast (hs : s.Numbered) {event : EventEnvelope V}
    {nextSequence : UInt64} (hevent : event.number = s.inner.events.length + 1)
    (hnext : nextSequence.toNat = s.inner.events.length + 2) :
    (EventStream.broadcast { s with inner := { s.inner with nextSequence } }
      event).Numbered := by
  have hclient : ∀ i client',
      (EventStream.broadcast { s with inner := { s.inner with nextSequence } }
        event).clients[i]? = some client' →
      ∃ client, s.clients[i]? = some client ∧ client'.cursor = client.cursor ∧
        client'.received = client.received ∧ client'.connected = client.connected ∧
        (client.connected = true → i ∈ s.inner.subscribers →
          client'.stream = client.stream ++ [event]) := by
    intro i client' hi
    simp only [EventStream.broadcast, List.getElem?_mapIdx] at hi
    obtain ⟨client, hold, rfl⟩ := Option.map_eq_some_iff.mp hi
    refine ⟨client, hold, ?_, ?_, ?_, ?_⟩
    · split <;> rfl
    · split <;> rfl
    · split <;> rfl
    · intro hconnected hmem
      rw [if_pos ⟨hmem, hconnected⟩]
      simp [EventClient.stream]
  refine ⟨?_, ?_, ?_, ?_, ?_⟩
  · show (s.inner.events ++ [event]).map EventEnvelope.number = _
    show _ = List.range' 1 (s.inner.events ++ [event]).length
    rw [List.map_append, hs.numbers, List.length_append, List.length_singleton,
      List.range'_1_concat, List.map_singleton, hevent, Nat.add_comm 1]
  · simpa [EventStream.broadcast] using hnext
  · intro i client' hi
    obtain ⟨client, hold, hcursor, -⟩ := hclient i client' hi
    have hbase := hs.cursors i client hold
    rw [hcursor]
    simp only [EventStream.broadcast, List.length_append, List.length_singleton]
    omega
  · intro i client' hi
    obtain ⟨client, hold, hcursor, hreceived, -⟩ := hclient i client' hi
    have hbase := hs.cursors i client hold
    have happend := accepted_append client s.inner.events event (by omega)
    have hsame : client'.accepted (s.inner.events ++ [event]) =
        client.accepted (s.inner.events ++ [event]) := by
      unfold EventClient.accepted
      rw [hcursor]
    show client'.received <+: client'.accepted (s.inner.events ++ [event])
    rw [hsame, happend, hreceived]
    exact (hs.received i client hold).trans (List.prefix_append _ _)
  · intro i client' hi hconnected
    obtain ⟨client, hold, hcursor, -, hsameConnected, hstream⟩ := hclient i client' hi
    rw [hsameConnected] at hconnected
    obtain ⟨hold_stream, hmem⟩ := hs.connected i client hold hconnected
    have hbase := hs.cursors i client hold
    have happend := accepted_append client s.inner.events event (by omega)
    have hsame : client'.accepted (s.inner.events ++ [event]) =
        client.accepted (s.inner.events ++ [event]) := by
      unfold EventClient.accepted
      rw [hcursor]
    refine ⟨?_, ?_⟩
    · show client'.stream = client'.accepted (s.inner.events ++ [event])
      rw [hsame, happend, hstream hconnected hmem, hold_stream]
    · apply List.mem_filter.mpr
      refine ⟨hmem, ?_⟩
      simp [EventStream.isConnected, hold, hconnected]

theorem EventStream.Numbered.subscribe (hs : s.Numbered) (cursor : EventReplayCursor)
    (hcursor : cursor.base ≤ s.inner.events.length) : (s.subscribe cursor).Numbered := by
  have hclient : ∀ (i : Nat) (client' : EventClient V),
      (s.subscribe cursor).clients[i]? = some client' →
      s.clients[i]? = some client' ∨
        (i = s.clients.length ∧ client'.cursor = cursor ∧ client'.received = [] ∧
          client'.stream = client'.accepted s.inner.events) := by
    intro i client' hi
    simp only [EventStream.subscribe, List.getElem?_append, List.getElem?_singleton] at hi
    split at hi
    · exact Or.inl hi
    · split at hi
      · cases hi
        refine Or.inr ⟨by omega, rfl, rfl, ?_⟩
        simp [EventClient.stream, EventClient.accepted]
      · cases hi
  refine ⟨hs.numbers, hs.next, ?_, ?_, ?_⟩
  · intro i client' hi
    rcases hclient i client' hi with hold | ⟨-, hnew, -⟩
    · exact hs.cursors i client' hold
    · rw [hnew]
      exact hcursor
  · intro i client' hi
    rcases hclient i client' hi with hold | ⟨-, -, hnew, -⟩
    · exact hs.received i client' hold
    · rw [hnew]
      exact List.nil_prefix
  · intro i client' hi hconnected
    rcases hclient i client' hi with hold | ⟨hlast, -, -, hstream⟩
    · obtain ⟨hstream, hmem⟩ := hs.connected i client' hold hconnected
      exact ⟨hstream, List.mem_append_left _ hmem⟩
    · refine ⟨hstream, List.mem_append_right _ ?_⟩
      rw [hlast]
      exact List.mem_singleton_self _

/-- Writing the next message moves it from what waits to what was received. -/
theorem writeNext_stream (client : EventClient V) :
    (EventStream.writeNext client).stream = client.stream := by
  obtain ⟨cursor, replay, currentSequence, channel, received, connected⟩ := client
  cases connected with
  | false => rfl
  | true =>
    cases replay with
    | cons event replay => simp [EventStream.writeNext, EventClient.stream]
    | nil =>
      cases channel with
      | cons event channel => simp [EventStream.writeNext, EventClient.stream]
      | nil => rfl

theorem writeNext_cursor (client : EventClient V) :
    (EventStream.writeNext client).cursor = client.cursor := by
  unfold EventStream.writeNext
  split
  · split
    · rfl
    · rfl
    · rfl
  · rfl

theorem writeNext_connected (client : EventClient V) :
    (EventStream.writeNext client).connected = client.connected := by
  unfold EventStream.writeNext
  split
  · split
    · rfl
    · rfl
    · rfl
  · rfl

theorem received_prefix_stream (client : EventClient V) :
    client.received <+: client.stream := List.prefix_append _ _

/-- A change of one client that keeps its cursor and its part in the log. -/
theorem EventStream.Numbered.modify (hs : s.Numbered) (k : Nat)
    {f : EventClient V → EventClient V} (hcursor : ∀ client, (f client).cursor = client.cursor)
    (hreceived : ∀ client, client.received <+: client.accepted s.inner.events →
      (client.connected = true → client.stream = client.accepted s.inner.events) →
      (f client).received <+: client.accepted s.inner.events)
    (hstream : ∀ client, (f client).connected = true →
      client.connected = true ∧ (f client).stream = client.stream) :
    EventStream.Numbered { s with clients := s.clients.modify k f } := by
  have hclient : ∀ (i : Nat) (client' : EventClient V),
      (s.clients.modify k f)[i]? = some client' →
      ∃ client, s.clients[i]? = some client ∧ (client' = client ∨ client' = f client) := by
    intro i client' hi
    rw [List.getElem?_modify] at hi
    obtain ⟨client, hold, rfl⟩ := Option.map_eq_some_iff.mp hi
    refine ⟨client, hold, ?_⟩
    split
    · exact Or.inr rfl
    · exact Or.inl rfl
  have haccepted : ∀ client, (f client).accepted s.inner.events =
      client.accepted s.inner.events := by
    intro client
    unfold EventClient.accepted
    rw [hcursor]
  refine ⟨hs.numbers, hs.next, ?_, ?_, ?_⟩
  · intro i client' hi
    obtain ⟨client, hold, rfl | rfl⟩ := hclient i client' hi
    · exact hs.cursors i _ hold
    · rw [hcursor]
      exact hs.cursors i client hold
  · intro i client' hi
    obtain ⟨client, hold, rfl | rfl⟩ := hclient i client' hi
    · exact hs.received i _ hold
    · rw [haccepted]
      exact hreceived client (hs.received i client hold) fun hconnected =>
        (hs.connected i client hold hconnected).1
  · intro i client' hi hconnected
    obtain ⟨client, hold, rfl | rfl⟩ := hclient i client' hi
    · exact hs.connected i _ hold hconnected
    · obtain ⟨hconnected', hsame⟩ := hstream client hconnected
      obtain ⟨hold_stream, hmem⟩ := hs.connected i client hold hconnected'
      refine ⟨?_, hmem⟩
      show (f client).stream = (f client).accepted s.inner.events
      rw [hsame, haccepted, hold_stream]

theorem EventStream.Numbered.deliver (hs : s.Numbered) (k : Nat) : (s.deliver k).Numbered := by
  apply hs.modify k writeNext_cursor
  · intro client hprefix hconnected
    cases hc : client.connected with
    | false =>
      have hsame : EventStream.writeNext client = client := by
        rw [EventStream.writeNext, hc]
        rfl
      rw [hsame]
      exact hprefix
    | true =>
      rw [← hconnected hc, ← writeNext_stream client]
      exact received_prefix_stream _
  · intro client hconnected
    rw [writeNext_connected] at hconnected
    exact ⟨hconnected, writeNext_stream client⟩

theorem EventStream.Numbered.disconnect (hs : s.Numbered) (k : Nat) :
    (s.disconnect k).Numbered := by
  apply hs.modify k (f := fun client => { client with connected := false })
  · exact fun _ => rfl
  · exact fun _ hprefix _ => hprefix
  · intro client hconnected
    cases hconnected

/-- One step of the log under an orderly move. -/
theorem EventStream.Numbered.step (hs : s.Numbered) {move : EventMove V}
    (hmove : move.Orderly s) : (s.step move).Numbered := by
  cases move with
  | publish now payload =>
    obtain ⟨value, hvalue⟩ := hmove
    have hnext := hs.next
    simp only [EventStream.step, EventStream.publish]
    split
    · rename_i sequence nextSequence hsequence hadd
      have hvalue' : sequence.value = s.inner.nextSequence := by
        unfold EventSequence.new at hsequence
        split at hsequence
        · cases hsequence
        · cases hsequence
          rfl
      have hadd' := toNat_of_checkedAdd hadd
      have hok : EventEnvelope.withTypedPayload now sequence payload =
          .ok (EventEnvelope.newAt sequence now payload.eventType value) := by
        unfold EventEnvelope.withTypedPayload
        rw [hvalue]
        rfl
      rw [hok]
      apply hs.broadcast
      · show sequence.value.toNat = _
        rw [hvalue', hnext]
      · rw [hadd', hnext, UInt64.toNat_one]
    · exact hs
  | subscribe cursor =>
    apply hs.subscribe
    have hnext := hs.next
    unfold EventReplayCursor.base
    cases hcursor : cursor.afterSequence with
    | none => exact Nat.zero_le _
    | some sequence =>
      have hlt := UInt64.lt_iff_toNat_lt.mp (hmove sequence hcursor)
      show sequence.value.toNat ≤ _
      omega
  | deliver k => exact hs.deliver k
  | disconnect k => exact hs.disconnect k

/-! ## From the invariant to the guarantee -/

/-- What a client accepts is the log without its first events. -/
theorem EventStream.Numbered.accepted_eq_drop (hs : s.Numbered) (client : EventClient V) :
    client.accepted s.inner.events = s.inner.events.drop client.cursor.base := by
  have hfilter := filter_accepts (k := 0) hs.numbers client.cursor
  rw [Nat.sub_zero] at hfilter
  exact hfilter

theorem EventStream.Numbered.drop_numbers (hs : s.Numbered) (n : Nat) :
    (s.inner.events.drop n).map EventEnvelope.number =
      List.range' (n + 1) (s.inner.events.length - n) := by
  rw [List.map_drop, hs.numbers, List.drop_range', Nat.add_comm]
  simp

/-- A prefix of what is accepted is numbered from the cursor on. -/
theorem EventStream.Numbered.prefix_numbers (hs : s.Numbered) {client : EventClient V}
    {events : List (EventEnvelope V)} (hinitial : events <+: client.accepted s.inner.events) :
    events.map EventEnvelope.number = List.range' (client.cursor.base + 1) events.length := by
  rw [hs.accepted_eq_drop] at hinitial
  have hlength := hinitial.length_le
  rw [List.length_drop] at hlength
  calc events.map EventEnvelope.number
      = ((s.inner.events.drop client.cursor.base).take events.length).map
          EventEnvelope.number :=
        congrArg (List.map _) (List.prefix_iff_eq_take.mp hinitial)
    _ = (List.range' (client.cursor.base + 1)
          (s.inner.events.length - client.cursor.base)).take events.length := by
        rw [List.map_take, hs.drop_numbers]
    _ = List.range' (client.cursor.base + 1) events.length :=
        List.take_range'_of_length_ge hlength

/-- Enough writes empty the replay and the channel. -/
theorem iterate_writeNext (client : EventClient V) (hconnected : client.connected = true) :
    ∃ k, (EventStream.writeNext^[k] client).received = client.stream := by
  obtain ⟨cursor, replay, currentSequence, channel, received, connected⟩ := client
  subst hconnected
  induction replay generalizing received with
  | cons event replay ih =>
    obtain ⟨k, hk⟩ := ih (received ++ [event])
    refine ⟨k + 1, ?_⟩
    rw [Function.iterate_succ_apply]
    simpa [EventStream.writeNext, EventClient.stream] using hk
  | nil =>
    induction channel generalizing received with
    | cons event channel ih =>
      obtain ⟨k, hk⟩ := ih (received ++ [event])
      refine ⟨k + 1, ?_⟩
      rw [Function.iterate_succ_apply]
      simpa [EventStream.writeNext, EventClient.stream] using hk
    | nil => exact ⟨0, by simp [EventClient.stream]⟩

/-- The last cursor of a client is as far as it has received. -/
theorem base_lastCursor {client : EventClient V}
    (hnumbers : client.received.map EventEnvelope.number =
      List.range' (client.cursor.base + 1) client.received.length) :
    client.lastCursor.base = client.cursor.base + client.received.length := by
  unfold EventClient.lastCursor
  cases hlast : client.received.getLast? with
  | none =>
    rw [List.getLast?_eq_none_iff] at hlast
    simp [hlast]
  | some event =>
    have hnumber := congrArg List.getLast? hnumbers
    rw [List.getLast?_map, hlast, List.getLast?_range'] at hnumber
    have hne : client.received.length ≠ 0 := by
      intro hzero
      rw [List.length_eq_zero_iff.mp hzero] at hlast
      cases hlast
    rw [if_neg hne] at hnumber
    have hvalue : event.number = client.cursor.base + 1 + client.received.length - 1 :=
      Option.some.inj hnumber
    show event.number = _
    omega

theorem EventStream.Numbered.exactlyOnce (hs : s.Numbered) : s.ExactlyOnce := by
  have hreceived : ∀ client ∈ s.clients, client.received <+: client.accepted s.inner.events := by
    intro client hmem
    obtain ⟨i, hi⟩ := List.mem_iff_getElem?.mp hmem
    exact hs.received i client hi
  have hcomplete : ∀ client ∈ s.clients, client.connected = true →
      client.stream = client.accepted s.inner.events := by
    intro client hmem hconnected
    obtain ⟨i, hi⟩ := List.mem_iff_getElem?.mp hmem
    exact (hs.connected i client hi hconnected).1
  refine ⟨hreceived, ?_, ?_, ?_, ?_⟩
  · intro client hmem
    exact hs.prefix_numbers (hreceived client hmem)
  · intro client hmem
    exact observeAll_contiguous ⟨client.cursor⟩ (hs.prefix_numbers (hreceived client hmem))
  · intro client hmem hconnected
    have hstream := hcomplete client hmem hconnected
    rw [← hstream]
    exact ⟨rfl, iterate_writeNext client hconnected⟩
  · intro client hmem next hnext hconnected hcursor
    have hprefix := hreceived client hmem
    have hbase := base_lastCursor (hs.prefix_numbers hprefix)
    calc client.received ++ next.stream
        = (client.accepted s.inner.events).take client.received.length ++ next.stream :=
          congrArg (· ++ _) (List.prefix_iff_eq_take.mp hprefix)
      _ = (client.accepted s.inner.events).take client.received.length ++
            (client.accepted s.inner.events).drop client.received.length := by
          rw [hcomplete next hnext hconnected, hs.accepted_eq_drop next, hcursor, hbase,
            ← List.drop_drop, ← hs.accepted_eq_drop client]
      _ = client.accepted s.inner.events := List.take_append_drop _ _

end

/-- In every run in which payloads serialise and no cursor is ahead of the log,
subscribers receive the published events after their cursor exactly once. -/
theorem events_delivered_exactly_once (moves : List (EventMove V))
    (horderly : ∀ n, (hn : n < moves.length) → moves[n].Orderly (streamAt moves n))
    (n : Nat) : (streamAt moves n).ExactlyOnce :=
  EventStream.Numbered.exactlyOnce
    (stateAt_induction (I := EventStream.Numbered) numbered_start
      (fun i hi hnumbered => hnumbered.step (horderly i hi)) n)

/-! ## Two runs -/

def textPayload (text : String) : TypedEventPayload String :=
  ⟨.sessionDiverged, .ok text⟩

/-- A client that loses its connection after the first of two events, and comes
back with the cursor of that event. -/
def reconnecting : List (EventMove String) := [
  .subscribe .fromStart,
  .publish 1000 (textPayload "first"),
  .deliver 0,
  .disconnect 0,
  .publish 2000 (textPayload "second"),
  .subscribe (.after ⟨1, by decide⟩),
  .deliver 1]

theorem reconnecting_orderly : ∀ n, (hn : n < reconnecting.length) →
    reconnecting[n].Orderly (streamAt reconnecting n) := by
  intro n hn
  match n, hn with
  | 0, _ => exact fun sequence h => nomatch h
  | 1, _ => exact ⟨"first", rfl⟩
  | 2, _ => trivial
  | 3, _ => trivial
  | 4, _ => exact ⟨"second", rfl⟩
  | 5, _ =>
    intro sequence h
    cases h
    decide
  | 6, _ => trivial
  | _ + 7, h => exact absurd h (by simp [reconnecting])

theorem events_delivered_exactly_once_reconnecting : (streamAt reconnecting 7).ExactlyOnce :=
  events_delivered_exactly_once reconnecting reconnecting_orderly 7

/-- A client resumes with a cursor from before a restart of the agent, which
numbers its events from one again. -/
def resumedAfterRestart : List (EventMove String) := [
  .subscribe (.after ⟨5, by decide⟩),
  .publish 1000 (textPayload "first"),
  .deliver 0]

/-- The second of three events does not serialise. -/
def unserialisable : List (EventMove String) := [
  .subscribe .fromStart,
  .publish 1000 (textPayload "first"),
  .publish 2000 ⟨.sessionDiverged, .error (.json "key must be a string")⟩,
  .publish 3000 (textPayload "third"),
  .deliver 0,
  .deliver 0]

/-- A client of a run in which everything is delivered as it should be. -/
theorem EventStream.ExactlyOnce.numbers {s : EventStream V} (hs : s.ExactlyOnce)
    {bases numbers : List Nat} (hbases : s.clients.map (fun client => client.cursor.base) = bases)
    (hnumbers : s.clients.map (fun client => client.received.map EventEnvelope.number) =
      [numbers]) : ∃ base, bases = [base] ∧ numbers = List.range' (base + 1) numbers.length := by
  obtain ⟨client, hclients, hreceived⟩ := List.map_eq_singleton_iff.mp hnumbers
  have hrange := hs.contiguous client (by rw [hclients]; exact List.mem_singleton_self _)
  rw [hreceived] at hrange
  refine ⟨client.cursor.base, ?_, ?_⟩
  · rw [← hbases, hclients]
    rfl
  · have hlength : client.received.length = numbers.length := by
      rw [← hreceived, List.length_map]
    rw [← hlength]
    exact hrange

/-- A cursor ahead of the log is not applied to the live events, and a failed
publish keeps the number it took. -/
theorem not_always_exactly_once :
    ¬(streamAt resumedAfterRestart 3).ExactlyOnce ∧ ¬(streamAt unserialisable 6).ExactlyOnce := by
  constructor
  · intro hclaim
    have hnumbers : ((streamAt resumedAfterRestart 3).clients.map fun client =>
        client.received.map EventEnvelope.number) = [[1]] := by decide
    have hbases : ((streamAt resumedAfterRestart 3).clients.map fun client =>
        client.cursor.base) = [5] := by decide
    obtain ⟨base, hbase, hrange⟩ := hclaim.numbers hbases hnumbers
    cases hbase
    exact absurd hrange (by decide)
  · intro hclaim
    have hnumbers : ((streamAt unserialisable 6).clients.map fun client =>
        client.received.map EventEnvelope.number) = [[1, 3]] := by decide
    have hbases : ((streamAt unserialisable 6).clients.map fun client =>
        client.cursor.base) = [0] := by decide
    obtain ⟨base, hbase, hrange⟩ := hclaim.numbers hbases hnumbers
    cases hbase
    exact absurd hrange (by decide)

end DevRelay.Agent
