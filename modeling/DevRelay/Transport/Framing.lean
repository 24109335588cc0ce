import DevRelay.Transport.RemoteCall

/-!
# Messages one after another

Messages that are written with `write_framed_message` are read back in their order, however the
stream is split; and whatever a stream holds, a read takes a whole message off it or fails, and
asks for no buffer beyond the limit.
-/

namespace DevRelay.Transport

open DevRelay.Core DevRelay.Lib DevRelay.Lib.SplitStream

def writeFramedMessages (limits : IpcLimits) : List (List UInt8) → IpcStream Unit
  | [] => .done ()
  | payload :: payloads => do
    writeFramedMessage payload limits
    writeFramedMessages limits payloads

/-- The results of some reads, which go on behind a read that fails. -/
def readFramedMessages (limits : IpcLimits) :
    Nat → Pipe → List (Except DevRelayError (List UInt8)) × Pipe
  | 0, pipe => ([], pipe)
  | count + 1, pipe =>
    let (result, pipe) := (readFramedMessage limits).through pipe
    let (results, pipe) := readFramedMessages limits count pipe
    (result :: results, pipe)

theorem toBeBytes_fromBeBytes {bytes : List UInt8} (h : bytes.length = 4) :
    toBeBytes (fromBeBytes bytes) = bytes := by
  match bytes, h with
  | [a, b, c, d], _ =>
    have ha := a.toNat_lt
    have hb := b.toNat_lt
    have hc := c.toNat_lt
    have hd := d.toNat_lt
    simp only [fromBeBytes, toBeBytes, List.foldl_cons, List.foldl_nil]
    congr 1
    · apply UInt8.toNat_inj.mp
      rw [UInt8.toNat_ofNat']
      omega
    congr 1
    · apply UInt8.toNat_inj.mp
      rw [UInt8.toNat_ofNat']
      omega
    congr 1
    · apply UInt8.toNat_inj.mp
      rw [UInt8.toNat_ofNat']
      omega
    congr 1
    · apply UInt8.toNat_inj.mp
      rw [UInt8.toNat_ofNat']
      omega

section

variable {limits : IpcLimits} {pipe after : Pipe} {payload : List UInt8}
  {payloads : List (List UInt8)}

/-! ## One read -/

theorem readExactOrIpc_over (count : Nat) (malformedMessage : String) (pipe : Pipe) :
    (∃ bytes incoming, readExactFrom count pipe.incoming = (.ok bytes, incoming) ∧
      (readExactOrIpc count malformedMessage).through pipe =
        (.ok bytes, { pipe with incoming, buffers := pipe.buffers ++ [count] })) ∨
    ∃ e incoming, (readExactOrIpc count malformedMessage).through pipe =
      (.error e, { pipe with incoming, buffers := pipe.buffers ++ [count] }) := by
  unfold readExactOrIpc
  rw [StreamProg.through]
  cases hread : readExactFrom count pipe.incoming with
  | mk result incoming =>
    cases result with
    | ok bytes => exact Or.inl ⟨bytes, incoming, rfl, rfl⟩
    | error failure =>
      right
      dsimp only
      split_ifs
      · exact ⟨_, incoming, rfl⟩
      · exact ⟨_, incoming, rfl⟩
      · exact ⟨_, incoming, rfl⟩

/-- What a read has taken and asked for, whatever the stream holds. -/
structure ReadsOne (limits : IpcLimits) (pipe : Pipe)
    (outcome : Except DevRelayError (List UInt8) × Pipe) : Prop where
  /-- a payload is within the limit, and the read took its frame and no more -/
  framed : ∀ payload, outcome.1 = .ok payload → payload.length ≤ limits.maxMessageBytes ∧
    content pipe.incoming = lengthFrame payload ++ content outcome.2.incoming
  /-- behind the array for the length, a buffer is within the limit -/
  buffers : ∃ requested, outcome.2.buffers = pipe.buffers ++ requested ∧
    (requested = [] ∨ ∃ sizes, requested = lengthPrefixBytes :: sizes ∧
      ∀ size ∈ sizes, size ≤ limits.maxMessageBytes)
  outgoing : outcome.2.outgoing = pipe.outgoing

theorem readFramedMessage_over (limits : IpcLimits) (pipe : Pipe) :
    ReadsOne limits pipe ((readFramedMessage limits).through pipe) := by
  unfold readFramedMessage
  cases hvalid : limits.validate with
  | error e =>
    exact {
      framed := fun payload h => by cases h
      buffers := ⟨[], (List.append_nil _).symm, Or.inl rfl⟩
      outgoing := rfl }
  | ok _ =>
    rw [StreamProg.ofExcept_ok_bind, StreamProg.over_bind]
    rcases readExactOrIpc_over lengthPrefixBytes "malformed IPC message: missing length prefix"
      pipe with ⟨lenBytes, incoming, hread, hover⟩ | ⟨e, incoming, hover⟩
    · obtain ⟨hlength, hcontent⟩ := readExactFrom_ok hread
      rw [hover]
      dsimp only
      by_cases hlen : fromBeBytes lenBytes > limits.maxMessageBytes
      · rw [if_pos hlen]
        exact {
          framed := fun payload h => by cases h
          buffers := ⟨[lengthPrefixBytes], rfl, Or.inr ⟨[], rfl, by simp⟩⟩
          outgoing := rfl }
      · rw [if_neg hlen]
        have hsize : fromBeBytes lenBytes ≤ limits.maxMessageBytes := Nat.not_lt.mp hlen
        have hbuffers : ∃ requested, pipe.buffers ++ [lengthPrefixBytes] ++
            [fromBeBytes lenBytes] = pipe.buffers ++ requested ∧
              (requested = [] ∨ ∃ sizes, requested = lengthPrefixBytes :: sizes ∧
                ∀ size ∈ sizes, size ≤ limits.maxMessageBytes) := by
          refine ⟨[lengthPrefixBytes, fromBeBytes lenBytes], List.append_assoc _ _ _, Or.inr
            ⟨[fromBeBytes lenBytes], rfl, ?_⟩⟩
          intro size hmem
          rw [List.mem_singleton.mp hmem]
          exact hsize
        rcases readExactOrIpc_over (fromBeBytes lenBytes)
          "malformed IPC message: truncated payload"
          { pipe with incoming, buffers := pipe.buffers ++ [lengthPrefixBytes] } with
          ⟨payload, rest, hbody, hover⟩ | ⟨e, rest, hover⟩
        · obtain ⟨hpayload, hrest⟩ := readExactFrom_ok hbody
          rw [hover]
          refine ⟨?_, hbuffers, rfl⟩
          intro other hother
          cases hother
          refine ⟨Nat.le_trans (Nat.le_of_eq hpayload) hsize, ?_⟩
          rw [hcontent, lengthFrame, hpayload, toBeBytes_fromBeBytes hlength, List.append_assoc]
          exact congrArg (lenBytes ++ ·) hrest
        · rw [hover]
          exact ⟨fun payload h => (by cases h), hbuffers, rfl⟩
    · rw [hover]
      exact {
        framed := fun payload h => by cases h
        buffers := ⟨[lengthPrefixBytes], rfl, Or.inr ⟨[], rfl, by simp⟩⟩
        outgoing := rfl }

/-- A message that is there is read. -/
theorem readFramedMessage_of_frame (hvalid : limits.validate = .ok ())
    (hmax : payload.length ≤ limits.maxMessageBytes) (hencode : payload.length < 2 ^ 32)
    (hflows : Flows pipe.incoming) {rest : List UInt8}
    (hcontent : content pipe.incoming = lengthFrame payload ++ rest) :
    ∃ after, (readFramedMessage limits).through pipe = (.ok payload, after) ∧
      Flows after.incoming ∧ content after.incoming = rest := by
  have hlength : (toBeBytes payload.length).length = lengthPrefixBytes := rfl
  rw [lengthFrame, List.append_assoc] at hcontent
  have hfour : lengthPrefixBytes ≤ (content pipe.incoming).length := by
    rw [hcontent, List.length_append, hlength]
    exact Nat.le_add_right _ _
  obtain ⟨incoming, hread, hincoming⟩ := readExactFrom_of_flows hflows hfour
  obtain ⟨-, hsplit⟩ := readExactFrom_ok hread
  rw [hcontent, List.take_left' hlength] at hread hsplit
  have hbody := List.append_cancel_left hsplit
  have hwhole : payload.length ≤ (content incoming).length := by
    rw [← hbody, List.length_append]
    exact Nat.le_add_right _ _
  obtain ⟨last, hlast, hflowsLast⟩ := readExactFrom_of_flows hincoming hwhole
  obtain ⟨-, hend⟩ := readExactFrom_ok hlast
  rw [← hbody, List.take_left] at hlast hend
  refine ⟨{ pipe with
    incoming := last
    buffers := pipe.buffers ++ [lengthPrefixBytes] ++ [payload.length] }, ?_, hflowsLast,
    (List.append_cancel_left hend).symm⟩
  unfold readFramedMessage
  rw [hvalid, StreamProg.ofExcept_ok_bind, StreamProg.over_bind]
  unfold readExactOrIpc
  rw [StreamProg.through, hread]
  dsimp only [StreamProg.through]
  rw [fromBeBytes_toBeBytes hencode, if_neg (Nat.not_lt.mpr hmax)]
  rw [StreamProg.through, hlast]
  rfl

/-- At the end of the stream a read fails. -/
theorem readFramedMessage_at_end (hvalid : limits.validate = .ok ())
    (hflows : Flows pipe.incoming) (hcontent : content pipe.incoming = []) :
    ∃ after, (readFramedMessage limits).through pipe =
        (.error (.ipc "malformed IPC message: missing length prefix"), after) ∧
      Flows after.incoming ∧ content after.incoming = [] := by
  have hnone : (content pipe.incoming).length < lengthPrefixBytes := by
    rw [hcontent]
    decide
  have hshort := readExactFrom_of_short hflows hnone
  refine ⟨{ pipe with incoming := [], buffers := pipe.buffers ++ [lengthPrefixBytes] }, ?_,
    List.forall_mem_nil _, rfl⟩
  unfold readFramedMessage
  rw [hvalid, StreamProg.ofExcept_ok_bind, StreamProg.over_bind]
  unfold readExactOrIpc
  rw [StreamProg.through, hshort]
  rfl

/-! ## All messages -/

def framed (payloads : List (List UInt8)) : List UInt8 := payloads.flatMap lengthFrame

theorem writeFramedMessage_over (hvalid : limits.validate = .ok ())
    (hmax : payload.length ≤ limits.maxMessageBytes) (hencode : payload.length < 2 ^ 32)
    (hwilling : Willing pipe.acceptances) :
    ∃ after, (writeFramedMessage payload limits).through pipe = (.ok (), after) ∧
      after.outgoing = pipe.outgoing ++ lengthFrame payload ∧ Willing after.acceptances := by
  obtain ⟨first, hfirst, hwillingFirst⟩ := writeAllTo_of_willing hwilling (toBeBytes payload.length)
  obtain ⟨second, hsecond, hwillingSecond⟩ := writeAllTo_of_willing hwillingFirst payload
  refine ⟨{ pipe with
    outgoing := pipe.outgoing ++ toBeBytes payload.length ++ payload ++ []
    acceptances := second }, ?_, ?_, hwillingSecond⟩
  · unfold writeFramedMessage
    rw [(checkMessage_eq_ok (u := ())).mpr ⟨hvalid, hmax, hencode⟩, StreamProg.ofExcept_ok_bind]
    unfold writeAllOrIpc flushOrIpc
    rw [StreamProg.over_bind, StreamProg.through, hfirst]
    dsimp only [StreamProg.through]
    rw [StreamProg.over_bind, StreamProg.through, hsecond]
    dsimp only [StreamProg.through]
    have hflush : writeAllTo [] second = (.ok (), [], second) := by
      cases second with
      | nil => rfl
      | cons acceptance acceptances => rfl
    rw [hflush]
    rfl
  · rw [List.append_nil, List.append_assoc]
    rfl

theorem writeFramedMessages_over (hvalid : limits.validate = .ok ())
    (hlengths : ∀ payload ∈ payloads,
      payload.length ≤ limits.maxMessageBytes ∧ payload.length < 2 ^ 32)
    (hwilling : Willing pipe.acceptances) :
    ∃ after, (writeFramedMessages limits payloads).through pipe = (.ok (), after) ∧
      after.outgoing = pipe.outgoing ++ framed payloads := by
  induction payloads generalizing pipe with
  | nil => exact ⟨pipe, rfl, (List.append_nil _).symm⟩
  | cons payload payloads ih =>
    obtain ⟨hmax, hencode⟩ := hlengths payload List.mem_cons_self
    obtain ⟨written, hwrite, houtgoing, hwillingRest⟩ :=
      writeFramedMessage_over hvalid hmax hencode hwilling
    obtain ⟨after, hrest, hafter⟩ :=
      ih (fun other hother => hlengths other (List.mem_cons_of_mem payload hother)) hwillingRest
    refine ⟨after, ?_, ?_⟩
    · rw [writeFramedMessages, StreamProg.over_bind, hwrite]
      exact hrest
    · rw [hafter, houtgoing, List.append_assoc]
      rfl

theorem readFramedMessages_at_end (hvalid : limits.validate = .ok ())
    (hflows : Flows pipe.incoming) (hcontent : content pipe.incoming = []) (count : Nat) :
    (readFramedMessages limits count pipe).1 =
      List.replicate count (.error (.ipc "malformed IPC message: missing length prefix")) := by
  induction count generalizing pipe with
  | zero => rfl
  | succ count ih =>
    obtain ⟨after, hread, hflowsAfter, hafter⟩ :=
      readFramedMessage_at_end hvalid hflows hcontent
    rw [readFramedMessages, hread, List.replicate_succ]
    exact congrArg _ (ih hflowsAfter hafter)

theorem readFramedMessages_over (hvalid : limits.validate = .ok ())
    (hlengths : ∀ payload ∈ payloads,
      payload.length ≤ limits.maxMessageBytes ∧ payload.length < 2 ^ 32)
    (hflows : Flows pipe.incoming) (hcontent : content pipe.incoming = framed payloads)
    (count : Nat) :
    (readFramedMessages limits (payloads.length + count) pipe).1 = payloads.map .ok ++
      List.replicate count (.error (.ipc "malformed IPC message: missing length prefix")) := by
  induction payloads generalizing pipe with
  | nil =>
    rw [List.length_nil, Nat.zero_add]
    exact readFramedMessages_at_end hvalid hflows hcontent count
  | cons payload payloads ih =>
    obtain ⟨hmax, hencode⟩ := hlengths payload List.mem_cons_self
    obtain ⟨after, hread, hflowsAfter, hafter⟩ :=
      readFramedMessage_of_frame hvalid hmax hencode hflows hcontent
    have hrest := ih (fun other hother => hlengths other (List.mem_cons_of_mem payload hother))
      hflowsAfter hafter
    rw [List.length_cons, Nat.add_right_comm, readFramedMessages, hread]
    exact congrArg _ hrest

end

/-- Messages that fit the limit and their prefix are written, and read back in their order and
no further, for every split of the writes and the reads; and on any stream, a read returns a
message of at most the limit and has taken its frame, or fails. -/
theorem framing_round_trip (limits : IpcLimits) :
    (∀ (payloads : List (List UInt8)) (writer : Pipe), limits.validate = .ok () →
      (∀ payload ∈ payloads, payload.length ≤ limits.maxMessageBytes ∧ payload.length < 2 ^ 32) →
      Willing writer.acceptances → writer.outgoing = [] →
      ∃ written, (writeFramedMessages limits payloads).through writer = (.ok (), written) ∧
        ∀ (reader : Pipe) (more : Nat), Flows reader.incoming →
          content reader.incoming = written.outgoing →
          (readFramedMessages limits (payloads.length + more) reader).1 = payloads.map .ok ++
            List.replicate more
              (.error (.ipc "malformed IPC message: missing length prefix"))) ∧
    ∀ pipe, ReadsOne limits pipe ((readFramedMessage limits).through pipe) := by
  refine ⟨?_, readFramedMessage_over limits⟩
  intro payloads writer hvalid hlengths hwilling hempty
  obtain ⟨written, hwrite, houtgoing⟩ := writeFramedMessages_over hvalid hlengths hwilling
  refine ⟨written, hwrite, ?_⟩
  intro reader more hflows hcontent
  rw [houtgoing, hempty, List.nil_append] at hcontent
  exact readFramedMessages_over hvalid hlengths hflows hcontent more

/-- The writer takes one byte at first, and the reader finds the frames in two pieces. -/
def slowWriter : Pipe := ⟨[], [], [.takes 1, .interrupted], []⟩

def twoPieces : Pipe :=
  ⟨[.data [0, 0, 0, 1, 7, 0], .interrupted, .data [0, 0, 0]], [], [], []⟩

theorem framing_round_trip_two : ∃ written,
    (writeFramedMessages .default [[7], []]).through slowWriter = (.ok (), written) ∧
      ∀ more : Nat, content twoPieces.incoming = written.outgoing →
        (readFramedMessages .default (2 + more) twoPieces).1 = [.ok [7], .ok []] ++
          List.replicate more (.error (.ipc "malformed IPC message: missing length prefix")) := by
  obtain ⟨written, hwrite, hread⟩ := (framing_round_trip .default).1 [[7], []] slowWriter
    IpcLimits.validate_default (by decide) (by
      intro acceptance hmem
      rcases List.mem_cons.mp hmem with rfl | hmem
      · exact Or.inr ⟨0, rfl⟩
      · exact Or.inl (List.mem_singleton.mp hmem)) rfl
  refine ⟨written, hwrite, fun more hcontent => hread twoPieces more ?_ hcontent⟩
  intro arrival hmem
  simp only [twoPieces, List.mem_cons, List.not_mem_nil, or_false] at hmem
  rcases hmem with rfl | rfl | rfl
  · exact Or.inr ⟨_, by decide, rfl⟩
  · exact Or.inl rfl
  · exact Or.inr ⟨_, by decide, rfl⟩

/-! ## A limit beyond the prefix -/

def wideLimits : IpcLimits := ⟨1, 1, 2 ^ 32⟩

/-- A payload of four gibibytes. -/
def hugePayload : List UInt8 := List.replicate (2 ^ 32) 0

theorem length_hugePayload : hugePayload.length = 2 ^ 32 := List.length_replicate

theorem hugePayload_refused : ¬∀ (limits : IpcLimits) (payloads : List (List UInt8))
    (writer : Pipe), (∀ payload ∈ payloads, payload.length ≤ limits.maxMessageBytes) →
    Willing writer.acceptances → writer.outgoing = [] →
    ∃ written, (writeFramedMessages limits payloads).through writer = (.ok (), written) := by
  intro hall
  have hfits : ∀ payload ∈ [hugePayload], payload.length ≤ wideLimits.maxMessageBytes := by
    intro payload hmem
    rw [List.mem_singleton.mp hmem, length_hugePayload]
    exact Nat.le_refl _
  obtain ⟨written, hwrite⟩ := hall wideLimits [hugePayload] ⟨[], [], [], []⟩ hfits
    (fun _ h => (nomatch h)) rfl
  cases hcheck : checkMessage hugePayload wideLimits with
  | ok u =>
    have hencode := (checkMessage_eq_ok.mp hcheck).2.2
    rw [length_hugePayload] at hencode
    exact Nat.lt_irrefl _ hencode
  | error e =>
    rw [writeFramedMessages, writeFramedMessage, hcheck] at hwrite
    cases hwrite

end DevRelay.Transport
