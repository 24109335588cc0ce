import Mathlib.Data.List.Basic
import Mathlib.Tactic.Common

/-!
# Programs over a byte stream

A stream carries bytes in both directions and arrives in order, but late: between two
operations the peer moves on its own, and every operation can break off after some of its
bytes.  What a broken write has handed over stays in the stream, and what a broken read has
taken out of it is lost.
-/

namespace DevRelay.Lib

inductive IoErrorKind where
  | unexpectedEof
  | timedOut
  | wouldBlock
  | other
  deriving DecidableEq, Repr

/-- How an operation on a stream fails, with the text of the system. -/
structure IoFailure where
  kind : IoErrorKind
  detail : String
  deriving DecidableEq, Repr

/-- The failure of a read that has waited too long. -/
def IoFailure.readTimeout : IoFailure :=
  ⟨.wouldBlock, "Resource temporarily unavailable (os error 11)"⟩

/-- A stream, by what its operations do to the state of the world. -/
structure Duplex (σ κ : Type) where
  write : List UInt8 → σ → σ
  arrived : σ → List UInt8
  consume : Nat → σ → σ
  peer : σ → κ → σ

/-- What happens at one operation: the moves of the peer before it, and whether it breaks
off, after how many bytes. -/
structure Turn (κ : Type) where
  moves : List κ := []
  failure : Option (Nat × IoFailure) := none

/-- Programs that write to a stream and read from it. -/
inductive StreamProg (ε α : Type) where
  | done (a : α)
  | fail (e : ε)
  | writeAll (bytes : List UInt8) (next : Except IoFailure Unit → StreamProg ε α)
  | readExact (count : Nat) (next : Except IoFailure (List UInt8) → StreamProg ε α)

namespace StreamProg

variable {ε α β : Type}

def bind : StreamProg ε α → (α → StreamProg ε β) → StreamProg ε β
  | done a, f => f a
  | fail e, _ => fail e
  | writeAll bytes next, f => writeAll bytes fun r => (next r).bind f
  | readExact count next, f => readExact count fun r => (next r).bind f

instance : Monad (StreamProg ε) where
  pure := done
  bind := bind

def ofExcept (r : Except ε α) : StreamProg ε α :=
  match r with
  | .ok a => done a
  | .error e => fail e

theorem ofExcept_ok_bind (a : α) (f : α → StreamProg ε β) : (ofExcept (.ok a) >>= f) = f a := rfl

/-- A run, from the `n`-th operation on.  A read for which not enough has arrived waits until
its time is over. -/
def exec {σ κ : Type} (d : Duplex σ κ) (turns : Nat → Turn κ) :
    Nat → StreamProg ε α → σ → Except ε α × σ
  | _, done a, s => (.ok a, s)
  | _, fail e, s => (.error e, s)
  | n, writeAll bytes next, s =>
    let t := (turns n).moves.foldl d.peer s
    match (turns n).failure with
    | some (count, failure) =>
      exec d turns (n + 1) (next (.error failure)) (d.write (bytes.take count) t)
    | none => exec d turns (n + 1) (next (.ok ())) (d.write bytes t)
  | n, readExact count next, s =>
    let t := (turns n).moves.foldl d.peer s
    match (turns n).failure with
    | some (got, failure) =>
      exec d turns (n + 1) (next (.error failure)) (d.consume (min got (count - 1)) t)
    | none =>
      if count ≤ (d.arrived t).length then
        exec d turns (n + 1) (next (.ok ((d.arrived t).take count))) (d.consume count t)
      else
        exec d turns (n + 1) (next (.error .readTimeout)) (d.consume count t)

/-- A read for which enough has arrived. -/
theorem exec_readExact {σ κ : Type} {d : Duplex σ κ} {turns : Nat → Turn κ} {n count : Nat}
    {next : Except IoFailure (List UInt8) → StreamProg ε α} {s t : σ} {bytes rest : List UInt8}
    (hfailure : (turns n).failure = none) (hmoved : (turns n).moves.foldl d.peer s = t)
    (harrived : d.arrived t = bytes ++ rest) (hcount : bytes.length = count) :
    (readExact count next).exec d turns n s =
      (next (.ok bytes)).exec d turns (n + 1) (d.consume count t) := by
  have henough : bytes.length ≤ (bytes ++ rest).length := by
    rw [List.length_append]
    exact Nat.le_add_right _ _
  rw [exec]
  simp only [hfailure, hmoved, harrived, ← hcount, List.take_left]
  exact if_pos henough

/-! ## What a run keeps -/

section Runs

variable {σ κ : Type} {d : Duplex σ κ} {turns : Nat → Turn κ}

/-- A property that no operation and no move of the peer breaks. -/
structure Kept (d : Duplex σ κ) (I : σ → Prop) : Prop where
  write : ∀ bytes s, I s → I (d.write bytes s)
  consume : ∀ count s, I s → I (d.consume count s)
  peer : ∀ move s, I s → I (d.peer s move)

theorem foldl_peer_of_step {I : σ → Prop} (h : ∀ move s, I s → I (d.peer s move))
    (moves : List κ) {s : σ} (hs : I s) : I (moves.foldl d.peer s) := by
  induction moves generalizing s with
  | nil => exact hs
  | cons move moves ih => exact ih (h move s hs)

theorem Kept.exec {I : σ → Prop} (h : Kept d I) (p : StreamProg ε α) (n : Nat) {s : σ}
    (hs : I s) : I (p.exec d turns n s).2 := by
  induction p generalizing n s with
  | done a => exact hs
  | fail e => exact hs
  | writeAll bytes next ih =>
    have hmoved := foldl_peer_of_step h.peer (turns n).moves hs
    cases hfailure : (turns n).failure with
    | none =>
      rw [StreamProg.exec]
      simp only [hfailure]
      exact ih _ _ (h.write _ _ hmoved)
    | some failure =>
      rw [StreamProg.exec]
      simp only [hfailure]
      exact ih _ _ (h.write _ _ hmoved)
  | readExact count next ih =>
    have hmoved := foldl_peer_of_step h.peer (turns n).moves hs
    cases hfailure : (turns n).failure with
    | none =>
      rw [StreamProg.exec]
      simp only [hfailure]
      split
      · exact ih _ _ (h.consume _ _ hmoved)
      · exact ih _ _ (h.consume _ _ hmoved)
    | some failure =>
      rw [StreamProg.exec]
      simp only [hfailure]
      exact ih _ _ (h.consume _ _ hmoved)

/-! ## What holds when a program returns -/

/-- Whenever the program returns a value, after whatever the peer did in between, `Q` holds
of the value and the state. -/
def Returns (d : Duplex σ κ) (Q : α → σ → Prop) : StreamProg ε α → σ → Prop
  | done a, s => Q a s
  | fail _, _ => True
  | writeAll bytes next, s => ∀ moves : List κ,
      (next (.ok ())).Returns d Q (d.write bytes (moves.foldl d.peer s)) ∧
      ∀ count failure, (next (.error failure)).Returns d Q
        (d.write (bytes.take count) (moves.foldl d.peer s))
  | readExact count next, s => ∀ moves : List κ,
      (count ≤ (d.arrived (moves.foldl d.peer s)).length →
        (next (.ok ((d.arrived (moves.foldl d.peer s)).take count))).Returns d Q
          (d.consume count (moves.foldl d.peer s))) ∧
      ∀ got failure, (next (.error failure)).Returns d Q
        (d.consume got (moves.foldl d.peer s))

theorem exec_returns {Q : α → σ → Prop} {p : StreamProg ε α} {s t : σ} {a : α} {n : Nat}
    (h : p.Returns d Q s) (hexec : p.exec d turns n s = (.ok a, t)) : Q a t := by
  induction p generalizing n s with
  | done b =>
    cases hexec
    exact h
  | fail e => cases hexec
  | writeAll bytes next ih =>
    obtain ⟨hok, herror⟩ := h (turns n).moves
    rw [StreamProg.exec] at hexec
    cases hfailure : (turns n).failure with
    | none =>
      simp only [hfailure] at hexec
      exact ih _ hok hexec
    | some failure =>
      simp only [hfailure] at hexec
      exact ih _ (herror _ _) hexec
  | readExact count next ih =>
    obtain ⟨hok, herror⟩ := h (turns n).moves
    rw [StreamProg.exec] at hexec
    cases hfailure : (turns n).failure with
    | none =>
      simp only [hfailure] at hexec
      split at hexec
      · rename_i hcount
        exact ih _ (hok hcount) hexec
      · exact ih _ (herror _ _) hexec
    | some failure =>
      simp only [hfailure] at hexec
      exact ih _ (herror _ _) hexec

theorem returns_mono {Q Q' : α → σ → Prop} {p : StreamProg ε α} {s : σ} (h : p.Returns d Q s)
    (hq : ∀ a t, Q a t → Q' a t) : p.Returns d Q' s := by
  induction p generalizing s with
  | done a => exact hq a s h
  | fail e => trivial
  | writeAll bytes next ih =>
    intro moves
    exact ⟨ih _ (h moves).1, fun count failure => ih _ ((h moves).2 count failure)⟩
  | readExact count next ih =>
    intro moves
    exact ⟨fun hcount => ih _ ((h moves).1 hcount),
      fun got failure => ih _ ((h moves).2 got failure)⟩

theorem returns_bind {Q : β → σ → Prop} {p : StreamProg ε α} {f : α → StreamProg ε β} {s : σ}
    (h : p.Returns d (fun a t => (f a).Returns d Q t) s) : (p >>= f).Returns d Q s := by
  induction p generalizing s with
  | done a => exact h
  | fail e => trivial
  | writeAll bytes next ih =>
    intro moves
    exact ⟨ih _ (h moves).1, fun count failure => ih _ ((h moves).2 count failure)⟩
  | readExact count next ih =>
    intro moves
    exact ⟨fun hcount => ih _ ((h moves).1 hcount),
      fun got failure => ih _ ((h moves).2 got failure)⟩

theorem returns_ofExcept {Q : α → σ → Prop} {r : Except ε α} {s : σ}
    (h : ∀ a, r = .ok a → Q a s) : (ofExcept r).Returns d Q s := by
  cases r with
  | ok a => exact h a rfl
  | error e => trivial

end Runs

end StreamProg

end DevRelay.Lib

/-!
## Streams in pieces

The bytes of a stream arrive in pieces of any length, and a write takes as many bytes as it
will.  `read_exact` and `write_all` repeat their calls until they are done, so that a program
over the stream does not see the pieces.
-/

namespace DevRelay.Lib.SplitStream

/-- What one call of `read` finds. -/
inductive Arrival where
  | data (bytes : List UInt8)
  | interrupted
  | failed (failure : IoFailure)
  deriving DecidableEq, Repr

/-- The bytes that are still to come. -/
def content : List Arrival → List UInt8
  | [] => []
  | .data bytes :: rest => bytes ++ content rest
  | .interrupted :: rest => content rest
  | .failed _ :: rest => content rest

/-- What is to come after a read has taken some bytes out of a piece. -/
def leftover (bytes : List UInt8) (count : Nat) (rest : List Arrival) : List Arrival :=
  if count < bytes.length then .data (bytes.drop count) :: rest else rest

def endOfStream : IoFailure := ⟨.unexpectedEof, "failed to fill whole buffer"⟩

def writeZero : IoFailure := ⟨.other, "failed to write whole buffer"⟩

/-- `read_exact`: a call that finds no byte is at the end of the stream. -/
def readExactFrom : Nat → List Arrival → Except IoFailure (List UInt8) × List Arrival
  | 0, arrivals => (.ok [], arrivals)
  | _ + 1, [] => (.error endOfStream, [])
  | count + 1, .data bytes :: rest =>
    if bytes = [] then (.error endOfStream, rest)
    else if count + 1 ≤ bytes.length then
      (.ok (bytes.take (count + 1)), leftover bytes (count + 1) rest)
    else
      match readExactFrom (count + 1 - bytes.length) rest with
      | (.ok more, rest) => (.ok (bytes ++ more), rest)
      | (.error failure, rest) => (.error failure, rest)
  | count + 1, .interrupted :: rest => readExactFrom (count + 1) rest
  | _ + 1, .failed failure :: rest => (.error failure, rest)

/-- What one call of `write` does. -/
inductive Acceptance where
  | takes (count : Nat)
  | interrupted
  | failed (failure : IoFailure)
  deriving DecidableEq, Repr

/-- `write_all`, with the bytes it has handed over.  Behind the listed calls the stream takes
everything. -/
def writeAllTo : List UInt8 → List Acceptance → Except IoFailure Unit × List UInt8 × List Acceptance
  | [], acceptances => (.ok (), [], acceptances)
  | first :: bytes, [] => (.ok (), first :: bytes, [])
  | first :: bytes, .takes count :: rest =>
    if count = 0 then (.error writeZero, [], rest)
    else
      let (result, sent, rest) := writeAllTo ((first :: bytes).drop count) rest
      (result, (first :: bytes).take count ++ sent, rest)
  | first :: bytes, .interrupted :: rest => writeAllTo (first :: bytes) rest
  | _ :: _, .failed failure :: rest => (.error failure, [], rest)

/-- A stream with what it has still to deliver, what was written to it, and the lengths of the
buffers that were handed to its reads. -/
structure Pipe where
  incoming : List Arrival
  outgoing : List UInt8
  acceptances : List Acceptance
  buffers : List Nat
  deriving DecidableEq, Repr

/-! ## Reads -/

section Reads

variable {arrivals rest : List Arrival} {bytes : List UInt8} {count : Nat}

theorem content_leftover (bytes : List UInt8) (count : Nat) (rest : List Arrival) :
    content (leftover bytes count rest) = bytes.drop count ++ content rest := by
  unfold leftover
  split_ifs with hmore
  · rfl
  · rw [List.drop_eq_nil_of_le (Nat.not_lt.mp hmore), List.nil_append]

/-- A read that succeeds takes exactly its bytes off the front. -/
theorem readExactFrom_ok (h : readExactFrom count arrivals = (.ok bytes, rest)) :
    bytes.length = count ∧ content arrivals = bytes ++ content rest := by
  induction arrivals generalizing count bytes with
  | nil =>
    cases count with
    | zero =>
      cases h
      exact ⟨rfl, rfl⟩
    | succ count => cases h
  | cons arrival arrivals ih =>
    cases count with
    | zero =>
      cases h
      exact ⟨rfl, rfl⟩
    | succ count =>
      cases arrival with
      | data piece =>
        rw [readExactFrom] at h
        split_ifs at h with hempty hroom
        · cases h
        · cases h
          constructor
          · rw [List.length_take]
            omega
          · rw [content_leftover, ← List.append_assoc, List.take_append_drop]
            rfl
        · cases hmore : readExactFrom (count + 1 - piece.length) arrivals with
          | mk result after =>
            rw [hmore] at h
            cases result with
            | error failure => cases h
            | ok more =>
              cases h
              obtain ⟨hlength, hcontent⟩ := ih hmore
              constructor
              · rw [List.length_append, hlength]
                omega
              · rw [content, hcontent, List.append_assoc]
      | interrupted => exact ih h
      | failed failure => cases h

/-- No call fails, and none finds the end of the stream before it is there. -/
def Flows (arrivals : List Arrival) : Prop :=
  ∀ arrival ∈ arrivals, arrival = .interrupted ∨ ∃ bytes, bytes ≠ [] ∧ arrival = .data bytes

theorem Flows.tail {arrival : Arrival} (h : Flows (arrival :: arrivals)) : Flows arrivals :=
  fun other hother => h other (List.mem_cons_of_mem arrival hother)

theorem Flows.leftover (h : Flows rest) (bytes : List UInt8) (count : Nat) :
    Flows (leftover bytes count rest) := by
  unfold SplitStream.leftover
  split_ifs with hmore
  · intro arrival harrival
    rcases List.mem_cons.mp harrival with heq | hrest
    · refine Or.inr ⟨bytes.drop count, ?_, heq⟩
      intro hnil
      rw [List.drop_eq_nil_iff] at hnil
      omega
    · exact h arrival hrest
  · exact h

/-- Where the bytes are there, the pieces do not matter. -/
theorem readExactFrom_of_flows (h : Flows arrivals) (hcount : count ≤ (content arrivals).length) :
    ∃ rest, readExactFrom count arrivals = (.ok ((content arrivals).take count), rest) ∧
      Flows rest := by
  induction arrivals generalizing count with
  | nil =>
    cases count with
    | zero => exact ⟨[], rfl, h⟩
    | succ count =>
      have habsurd : count + 1 ≤ 0 := hcount
      omega
  | cons arrival arrivals ih =>
    cases count with
    | zero => exact ⟨arrival :: arrivals, rfl, h⟩
    | succ count =>
      rcases h arrival List.mem_cons_self with rfl | ⟨piece, hpiece, rfl⟩
      · exact ih h.tail hcount
      · rw [content, List.length_append] at hcount
        rw [readExactFrom, if_neg hpiece, content]
        by_cases hroom : count + 1 ≤ piece.length
        · rw [if_pos hroom, List.take_append_of_le_length hroom]
          exact ⟨_, rfl, h.tail.leftover piece (count + 1)⟩
        · obtain ⟨rest, hread, hrest⟩ := ih h.tail (Nat.sub_le_iff_le_add'.mpr hcount)
          rw [if_neg hroom, hread, List.take_append,
            List.take_of_length_le (Nat.le_of_not_le hroom)]
          exact ⟨rest, rfl, hrest⟩

/-- Where they are not, the read ends with the stream. -/
theorem readExactFrom_of_short (h : Flows arrivals) (hcount : (content arrivals).length < count) :
    readExactFrom count arrivals = (.error endOfStream, []) := by
  induction arrivals generalizing count with
  | nil =>
    cases count with
    | zero => cases hcount
    | succ count => rfl
  | cons arrival arrivals ih =>
    cases count with
    | zero => cases hcount
    | succ count =>
      rcases h arrival List.mem_cons_self with rfl | ⟨piece, hpiece, rfl⟩
      · exact ih h.tail hcount
      · rw [content, List.length_append] at hcount
        have hroom : ¬count + 1 ≤ piece.length := by omega
        rw [readExactFrom, if_neg hpiece, if_neg hroom, ih h.tail (by omega)]

end Reads

/-! ## Writes -/

section Writes

variable {acceptances rest : List Acceptance}

/-- No call fails, and each takes a byte. -/
def Willing (acceptances : List Acceptance) : Prop :=
  ∀ acceptance ∈ acceptances, acceptance = .interrupted ∨ ∃ count, acceptance = .takes (count + 1)

theorem Willing.tail {acceptance : Acceptance} (h : Willing (acceptance :: acceptances)) :
    Willing acceptances := fun other hother => h other (List.mem_cons_of_mem acceptance hother)

theorem writeAllTo_of_willing (h : Willing acceptances) (bytes : List UInt8) :
    ∃ rest, writeAllTo bytes acceptances = (.ok (), bytes, rest) ∧ Willing rest := by
  induction acceptances generalizing bytes with
  | nil =>
    cases bytes with
    | nil => exact ⟨[], rfl, h⟩
    | cons first bytes => exact ⟨[], rfl, h⟩
  | cons acceptance acceptances ih =>
    cases bytes with
    | nil => exact ⟨acceptance :: acceptances, rfl, h⟩
    | cons first bytes =>
      rcases h acceptance List.mem_cons_self with rfl | ⟨count, rfl⟩
      · exact ih h.tail (first :: bytes)
      · obtain ⟨rest, hwrite, hrest⟩ := ih h.tail ((first :: bytes).drop (count + 1))
        rw [writeAllTo, if_neg (Nat.succ_ne_zero count), hwrite]
        refine ⟨rest, ?_, hrest⟩
        simp only [List.take_append_drop]

end Writes

end DevRelay.Lib.SplitStream

/-! ## Programs -/

namespace DevRelay.Lib.StreamProg

open SplitStream

variable {ε α β : Type}

/-- A run of a program whose stream comes in pieces. -/
def through : StreamProg ε α → Pipe → Except ε α × Pipe
  | done a, pipe => (.ok a, pipe)
  | fail e, pipe => (.error e, pipe)
  | writeAll bytes next, pipe =>
    let (result, sent, acceptances) := writeAllTo bytes pipe.acceptances
    through (next result) { pipe with outgoing := pipe.outgoing ++ sent, acceptances }
  | readExact count next, pipe =>
    let (result, incoming) := readExactFrom count pipe.incoming
    through (next result) { pipe with incoming, buffers := pipe.buffers ++ [count] }

theorem over_bind (p : StreamProg ε α) (f : α → StreamProg ε β) (pipe : Pipe) :
    (p >>= f).through pipe =
      match p.through pipe with
      | (.ok a, after) => (f a).through after
      | (.error e, after) => (.error e, after) := by
  induction p generalizing pipe with
  | done a => rfl
  | fail e => rfl
  | writeAll bytes next ih => exact ih _ _
  | readExact count next ih => exact ih _ _

end DevRelay.Lib.StreamProg
