import DevRelay.Transport.RemoteCall

/-!
# Replies and the requests they answer

Requests and replies are matched by their order on the connection only.  A call that breaks
off leaves its request, or its reply, on the way, and the connection can still be used: from
then on every reply is read by a later call.
-/

namespace DevRelay.Transport

open DevRelay.Core DevRelay.Lib DevRelay.Trust

/-- A request the server has read, with the place of its frame in the stream of the client. -/
structure Request where
  start : Nat
  stop : Nat
  payload : List UInt8
  deriving DecidableEq, Repr

/-- A request and the response to it. -/
structure Answer extends Request where
  response : List UInt8
  deriving DecidableEq, Repr

/-- A connection: what is on the way, how much the server has read of the stream of the client,
the request it is at and what it has not written of the last response, and what it has
answered.  A frame counts as read when it is complete. -/
structure Link where
  toServer : List UInt8 := []
  taken : Nat := 0
  request : Option Request := none
  unsent : List UInt8 := []
  toClient : List UInt8 := []
  closed : Bool := false
  answers : List Answer := []
  deriving DecidableEq, Repr

/-- A step of the loop of `serve_remote_connection`: the read of a frame, its processing, and
the write of some bytes of the response.  Everything that ends the loop closes the
connection. -/
inductive ServerMove where
  | read
  | process (response : List UInt8)
  | write (count : Nat)
  | close
  deriving DecidableEq, Repr

namespace Link

/-- How much the client has written. -/
def written (self : Link) : Nat := self.taken + self.toServer.length

/-- `read_framed_message` on what has arrived: nothing while the frame is not complete. -/
def nextFrame (limits : IpcLimits) (bytes : List UInt8) :
    Option (Except DevRelayError (List UInt8)) :=
  match limits.validate with
  | .error e => some (.error e)
  | .ok _ =>
    if bytes.length < lengthPrefixBytes then none
    else
      let len := fromBeBytes (bytes.take lengthPrefixBytes)
      if len > limits.maxMessageBytes then
        some (.error (messageTooLarge len limits.maxMessageBytes))
      else if bytes.length < lengthPrefixBytes + len then none
      else some (.ok ((bytes.drop lengthPrefixBytes).take len))

/-- A frame is read when the response before it is written. -/
def read (limits : IpcLimits) (self : Link) : Link :=
  if self.request.isSome || !self.unsent.isEmpty then self
  else
    match nextFrame limits self.toServer with
    | none => self
    | some (.error _) => { self with closed := true }
    | some (.ok payload) =>
      let stop := self.taken + lengthPrefixBytes + payload.length
      { self with
        toServer := self.toServer.drop (lengthPrefixBytes + payload.length)
        taken := stop
        request := some ⟨self.taken, stop, payload⟩ }

/-- A response that `write_framed_message` refuses ends the loop. -/
def process (limits : IpcLimits) (response : List UInt8) (self : Link) : Link :=
  match self.request with
  | none => self
  | some request =>
    match checkMessage response limits with
    | .error _ => { self with request := none, closed := true }
    | .ok _ =>
      { self with
        request := none
        unsent := lengthFrame response
        answers := self.answers ++ [⟨request, response⟩] }

def serve (limits : IpcLimits) (self : Link) (move : ServerMove) : Link :=
  if self.closed then self
  else
    match move with
    | .read => read limits self
    | .process response => process limits response self
    | .write count =>
      { self with
        toClient := self.toClient ++ self.unsent.take count
        unsent := self.unsent.drop count }
    | .close => { self with closed := true }

/-- The stream of the client. -/
def duplex (limits : IpcLimits) : Duplex Link ServerMove where
  write bytes self := { self with toServer := self.toServer ++ bytes }
  arrived self := self.toClient
  consume count self := { self with toClient := self.toClient.drop count }
  peer := serve limits

end Link

/-! ## Calls on a connection -/

/-- A call that has ended, with the place of what it wrote. -/
structure Finished where
  start : Nat
  stop : Nat
  result : Except DevRelayError RpcResponse

/-- A call, with all that happens during it. -/
structure CallEvent where
  arguments : CallArguments
  turns : Nat → Turn ServerMove

structure Connection where
  client : RemoteControlClient
  link : Link := {}
  finished : List Finished := []

section Calls

variable (codec : JsonCodec) (serverLimits : IpcLimits)

/-- The next call on the connection. -/
def Connection.call (self : Connection) (event : CallEvent) : Connection :=
  let result := (self.client.call codec event.arguments).exec (Link.duplex serverLimits)
    event.turns 0 self.link
  { client := self.client.afterCall
    link := result.2
    finished := self.finished ++ [⟨self.link.written, result.2.written, result.1⟩] }

/-- A call that returned got the response to its own request. -/
def Finished.Matched (answers : List Answer) (self : Finished) : Prop :=
  ∀ response, self.result = .ok response → ∃ answer ∈ answers,
    answer.start = self.start ∧ answer.stop = self.stop ∧
      codec.readResponse answer.response = .ok response

/-- Every call that returned got the response to its own request. -/
def Connection.RepliesMatch (self : Connection) : Prop :=
  ∀ call ∈ self.finished, call.Matched codec self.link.answers

end Calls

/-- Nothing of an earlier exchange is on the way, or at the server. -/
def Link.Settled (self : Link) : Prop :=
  self.toClient = [] ∧
    (self.closed = true ∨ self.toServer = [] ∧ self.request = none ∧ self.unsent = [])

/-! ## What the server can do during a call -/

namespace Link

/-- What the server reads from the beginning of a frame. -/
theorem nextFrame_of_isPrefix (limits : IpcLimits) {payload sent : List UInt8}
    (hpayload : payload.length < 2 ^ 32) (hsent : sent <+: lengthFrame payload) :
    nextFrame limits sent = none ∨ (∃ e, nextFrame limits sent = some (.error e)) ∨
      sent = lengthFrame payload ∧ nextFrame limits sent = some (.ok payload) := by
  unfold nextFrame
  cases limits.validate with
  | error e => exact Or.inr (Or.inl ⟨e, rfl⟩)
  | ok _ =>
    simp only
    by_cases hlength : sent.length < lengthPrefixBytes
    · rw [if_pos hlength]
      exact Or.inl rfl
    · have htake : sent.take lengthPrefixBytes = toBeBytes payload.length := by
        obtain ⟨rest, hrest⟩ := hsent
        have hfront := congrArg (List.take lengthPrefixBytes) hrest
        rw [List.take_append_of_le_length (by omega)] at hfront
        exact hfront
      rw [if_neg hlength, htake, fromBeBytes_toBeBytes hpayload]
      split_ifs with hlarge hmore
      · exact Or.inr (Or.inl ⟨_, rfl⟩)
      · exact Or.inl rfl
      · have hall : sent = lengthFrame payload := by
          apply hsent.eq_of_length_le
          rw [length_lengthFrame]
          exact Nat.not_lt.mp hmore
        refine Or.inr (Or.inr ⟨hall, ?_⟩)
        rw [hall, show (lengthFrame payload).drop lengthPrefixBytes = payload from rfl,
          List.take_length]

/-- A call that began at `start`, has written `sent` of the frame of `payload`, and has read
`got` of the frame of the reply. -/
inductive Exchange (start : Nat) (payload sent got : List UInt8) (link : Link) : Prop where
  | closed (hclosed : link.closed = true) (hclient : link.toClient = []) (hgot : got = [])
  | waiting (htaken : link.taken = start) (hserver : link.toServer = sent)
      (hrequest : link.request = none) (hunsent : link.unsent = [])
      (hclient : link.toClient = []) (hgot : got = [])
  | taken (hsent : sent = lengthFrame payload) (htaken : link.taken = start + sent.length)
      (hserver : link.toServer = []) (hrequest : link.request = some ⟨start, link.taken, payload⟩)
      (hunsent : link.unsent = []) (hclient : link.toClient = []) (hgot : got = [])
  | answered (response : List UInt8)
      (hanswer : ⟨⟨start, link.taken, payload⟩, response⟩ ∈ link.answers)
      (hsent : sent = lengthFrame payload) (htaken : link.taken = start + sent.length)
      (hserver : link.toServer = []) (hrequest : link.request = none)
      (hresponse : response.length < 2 ^ 32)
      (hreply : got ++ link.toClient ++ link.unsent = lengthFrame response)

theorem serve_of_closed (limits : IpcLimits) {link : Link} (move : ServerMove)
    (h : link.closed = true) : serve limits link move = link := by
  unfold serve
  rw [if_pos h]

/-- What is answered stays answered. -/
theorem answers_subset_serve (limits : IpcLimits) (link : Link) (move : ServerMove) :
    link.answers ⊆ (serve limits link move).answers := by
  unfold serve
  split_ifs
  · exact List.Subset.refl _
  cases move with
  | read =>
    dsimp only
    unfold read
    repeat' split
    all_goals exact List.Subset.refl _
  | process response =>
    dsimp only
    unfold process
    split
    · exact List.Subset.refl _
    · split
      · exact List.Subset.refl _
      · exact List.subset_append_left _ _
  | write count => exact List.Subset.refl _
  | close => exact List.Subset.refl _

theorem nextFrame_nil (limits : IpcLimits) :
    nextFrame limits [] = none ∨ ∃ e, nextFrame limits [] = some (.error e) := by
  unfold nextFrame
  cases limits.validate with
  | error e => exact Or.inr ⟨e, rfl⟩
  | ok _ => exact Or.inl rfl

section Moves

variable {limits : IpcLimits} {start : Nat} {payload sent got : List UInt8} {link : Link}

theorem read_of_request (h : link.request.isSome = true) : read limits link = link := by
  unfold read
  rw [h, Bool.true_or, if_pos rfl]

theorem read_of_unsent (h : link.unsent ≠ []) : read limits link = link := by
  unfold read
  rw [if_pos]
  simpa using Or.inr h

theorem read_of_idle (hrequest : link.request = none) (hunsent : link.unsent = []) :
    read limits link =
      match nextFrame limits link.toServer with
      | none => link
      | some (.error _) => { link with closed := true }
      | some (.ok payload) =>
        let stop := link.taken + lengthPrefixBytes + payload.length
        { link with
          toServer := link.toServer.drop (lengthPrefixBytes + payload.length)
          taken := stop
          request := some ⟨link.taken, stop, payload⟩ } := by
  unfold read
  rw [hrequest, hunsent]
  rfl

theorem Exchange.close (h : Exchange start payload sent got link) :
    Exchange start payload sent got { link with closed := true } := by
  cases h with
  | closed hclosed hclient hgot => exact .closed rfl hclient hgot
  | waiting htaken hserver hrequest hunsent hclient hgot => exact .closed rfl hclient hgot
  | taken hall htaken hserver hrequest hunsent hclient hgot => exact .closed rfl hclient hgot
  | answered response hanswer hall htaken hserver hrequest hresponse hreply =>
    exact .answered response hanswer hall htaken hserver hrequest hresponse hreply

/-- The server has the whole frame before it, or nothing of it. -/
theorem Exchange.read (hpayload : payload.length < 2 ^ 32) (hsent : sent <+: lengthFrame payload)
    (hopen : link.closed = false) (h : Exchange start payload sent got link) :
    Exchange start payload sent got (read limits link) := by
  cases h with
  | closed hclosed hclient hgot => exact absurd hclosed (by simp [hopen])
  | waiting htaken hserver hrequest hunsent hclient hgot =>
    rw [read_of_idle hrequest hunsent, hserver]
    rcases nextFrame_of_isPrefix limits hpayload hsent with
      hnone | ⟨e, herror⟩ | ⟨hall, hok⟩
    · rw [hnone]
      exact .waiting htaken hserver hrequest hunsent hclient hgot
    · rw [herror]
      exact .closed rfl hclient hgot
    · rw [hok]
      have hstop : link.taken + lengthPrefixBytes + payload.length = start + sent.length := by
        rw [hall, length_lengthFrame, htaken, Nat.add_assoc]
        rfl
      refine .taken hall hstop ?_ ?_ hunsent hclient hgot
      · rw [hall]
        exact List.drop_eq_nil_of_le (by rw [length_lengthFrame]; exact Nat.le_refl _)
      · rw [← htaken]
  | taken hall htaken hserver hrequest hunsent hclient hgot =>
    rw [read_of_request (by rw [hrequest]; rfl)]
    exact .taken hall htaken hserver hrequest hunsent hclient hgot
  | answered response hanswer hall htaken hserver hrequest hresponse hreply =>
    by_cases hunsent : link.unsent = []
    · rw [read_of_idle hrequest hunsent]
      rcases hserver ▸ nextFrame_nil limits with hnone | ⟨e, herror⟩
      · rw [hnone]
        exact .answered response hanswer hall htaken hserver hrequest hresponse hreply
      · rw [herror]
        exact Exchange.close
          (.answered response hanswer hall htaken hserver hrequest hresponse hreply)
    · rw [read_of_unsent hunsent]
      exact .answered response hanswer hall htaken hserver hrequest hresponse hreply

/-- The request that is processed is the one of the call. -/
theorem Exchange.process (response : List UInt8) (hopen : link.closed = false)
    (h : Exchange start payload sent got link) :
    Exchange start payload sent got (process limits response link) := by
  unfold Link.process
  cases h with
  | closed hclosed hclient hgot => exact absurd hclosed (by simp [hopen])
  | waiting htaken hserver hrequest hunsent hclient hgot =>
    rw [hrequest]
    exact .waiting htaken hserver hrequest hunsent hclient hgot
  | taken hall htaken hserver hrequest hunsent hclient hgot =>
    rw [hrequest]
    dsimp only
    cases hcheck : checkMessage response limits with
    | error e => exact .closed rfl hclient hgot
    | ok _ =>
      refine .answered response (List.mem_append_right _ List.mem_cons_self) hall htaken
        hserver rfl (checkMessage_eq_ok.mp hcheck).2.2 ?_
      rw [hgot, hclient]
      rfl
  | answered earlier hanswer hall htaken hserver hrequest hresponse hreply =>
    rw [hrequest]
    exact .answered earlier hanswer hall htaken hserver hrequest hresponse hreply

theorem Exchange.send (count : Nat) (hopen : link.closed = false)
    (h : Exchange start payload sent got link) :
    Exchange start payload sent got { link with
      toClient := link.toClient ++ link.unsent.take count
      unsent := link.unsent.drop count } := by
  cases h with
  | closed hclosed hclient hgot => exact absurd hclosed (by simp [hopen])
  | waiting htaken hserver hrequest hunsent hclient hgot =>
    refine .waiting htaken hserver hrequest ?_ ?_ hgot
    · rw [hunsent, List.drop_nil]
    · rw [hclient, hunsent, List.take_nil, List.nil_append]
  | taken hall htaken hserver hrequest hunsent hclient hgot =>
    refine .taken hall htaken hserver hrequest ?_ ?_ hgot
    · rw [hunsent, List.drop_nil]
    · rw [hclient, hunsent, List.take_nil, List.nil_append]
  | answered response hanswer hall htaken hserver hrequest hresponse hreply =>
    refine .answered response hanswer hall htaken hserver hrequest hresponse ?_
    rw [← List.append_assoc, List.append_assoc _ (link.unsent.take count),
      List.take_append_drop, hreply]

end Moves

/-- A server move keeps the exchange what it is. -/
theorem Exchange.serve {limits : IpcLimits} {start : Nat} {payload sent got : List UInt8}
    {link : Link} (hpayload : payload.length < 2 ^ 32) (hsent : sent <+: lengthFrame payload)
    (h : Exchange start payload sent got link) (move : ServerMove) :
    Exchange start payload sent got (serve limits link move) := by
  cases hclosed : link.closed with
  | true => rwa [serve_of_closed limits move hclosed]
  | false =>
    unfold Link.serve
    rw [if_neg (by simp [hclosed])]
    cases move with
    | read => exact h.read hpayload hsent hclosed
    | process response => exact h.process response hclosed
    | write count => exact h.send count hclosed
    | close => exact h.close

theorem Exchange.foldl_serve (limits : IpcLimits) {start : Nat}
    {payload sent got : List UInt8} {link : Link} (hpayload : payload.length < 2 ^ 32)
    (hsent : sent <+: lengthFrame payload) (h : Exchange start payload sent got link)
    (moves : List ServerMove) :
    Exchange start payload sent got (moves.foldl (duplex limits).peer link) :=
  StreamProg.foldl_peer_of_step (d := duplex limits)
    (I := Exchange start payload sent got)
    (fun move _ hlink => Exchange.serve hpayload hsent hlink move) moves h

/-- Behind a complete frame nothing is left to write. -/
theorem eq_nil_of_whole {payload sent bytes : List UInt8} (hwhole : sent = lengthFrame payload)
    (hmore : sent ++ bytes <+: lengthFrame payload) : bytes = [] := by
  have hle := hmore.length_le
  rw [List.length_append, hwhole] at hle
  exact List.length_eq_zero_iff.mp (by omega)

/-- The client writes the next bytes of its frame. -/
theorem Exchange.write (limits : IpcLimits) {start : Nat} {payload sent : List UInt8}
    {link : Link} (bytes : List UInt8) (hmore : sent ++ bytes <+: lengthFrame payload)
    (h : Exchange start payload sent [] link) :
    Exchange start payload (sent ++ bytes) [] ((duplex limits).write bytes link) := by
  cases h with
  | closed hclosed hclient hgot => exact .closed hclosed hclient hgot
  | waiting htaken hserver hrequest hunsent hclient hgot =>
    exact .waiting htaken (congrArg (· ++ bytes) hserver) hrequest hunsent hclient hgot
  | taken hwhole htaken hserver hrequest hunsent hclient hgot =>
    cases eq_nil_of_whole hwhole hmore
    rw [List.append_nil]
    exact .taken hwhole htaken ((List.append_nil link.toServer).trans hserver) hrequest hunsent
      hclient hgot
  | answered response hanswer hwhole htaken hserver hrequest hresponse hreply =>
    cases eq_nil_of_whole hwhole hmore
    rw [List.append_nil]
    exact .answered response hanswer hwhole htaken
      ((List.append_nil link.toServer).trans hserver) hrequest hresponse hreply

/-- The client reads what has arrived. -/
theorem Exchange.consume (limits : IpcLimits) {start : Nat} {payload sent got : List UInt8}
    {link : Link} (count : Nat) (h : Exchange start payload sent got link) :
    Exchange start payload sent (got ++ ((duplex limits).arrived link).take count)
      ((duplex limits).consume count link) := by
  have hidle : link.toClient = [] → got = [] → ((duplex limits).consume count link).toClient = [] ∧
      got ++ ((duplex limits).arrived link).take count = [] := by
    intro hclient hgot
    constructor
    · show link.toClient.drop count = []
      rw [hclient, List.drop_nil]
    · show got ++ link.toClient.take count = []
      rw [hclient, hgot, List.take_nil]
      rfl
  cases h with
  | closed hclosed hclient hgot =>
    obtain ⟨hclient', hgot'⟩ := hidle hclient hgot
    exact .closed hclosed hclient' hgot'
  | waiting htaken hserver hrequest hunsent hclient hgot =>
    obtain ⟨hclient', hgot'⟩ := hidle hclient hgot
    exact .waiting htaken hserver hrequest hunsent hclient' hgot'
  | taken hwhole htaken hserver hrequest hunsent hclient hgot =>
    obtain ⟨hclient', hgot'⟩ := hidle hclient hgot
    exact .taken hwhole htaken hserver hrequest hunsent hclient' hgot'
  | answered response hanswer hwhole htaken hserver hrequest hresponse hreply =>
    refine .answered response hanswer hwhole htaken hserver hrequest hresponse ?_
    show got ++ link.toClient.take count ++ link.toClient.drop count ++ link.unsent = _
    rwa [List.append_assoc got, List.take_append_drop]

/-- The server has got the frame, and the client the first part of its reply. -/
theorem Exchange.answered_of_got {start : Nat} {payload sent got : List UInt8} {link : Link}
    (h : Exchange start payload sent got link) (hgot : got ≠ []) :
    ∃ response, ⟨⟨start, link.written, payload⟩, response⟩ ∈ link.answers ∧
      link.toServer = [] ∧ link.request = none ∧ response.length < 2 ^ 32 ∧
        got ++ link.toClient ++ link.unsent = lengthFrame response := by
  cases h with
  | closed hclosed hclient hnil => exact absurd hnil hgot
  | waiting htaken hserver hrequest hunsent hclient hnil => exact absurd hnil hgot
  | taken hwhole htaken hserver hrequest hunsent hclient hnil => exact absurd hnil hgot
  | answered response hanswer hwhole htaken hserver hrequest hresponse hreply =>
    have hwritten : link.written = link.taken := by
      rw [written, hserver]
      rfl
    exact ⟨response, hwritten ▸ hanswer, hserver, hrequest, hresponse, hreply⟩

/-- What is read to the end, with nothing left over, is the reply. -/
theorem returns_readFramedMessage {serverLimits limits : IpcLimits} {start : Nat}
    {payload : List UInt8} {link : Link} (hpayload : payload.length < 2 ^ 32)
    (h : Exchange start payload (lengthFrame payload) [] link) :
    (readFramedMessage limits).Returns (duplex serverLimits)
      (fun response t => ⟨⟨start, t.written, payload⟩, response⟩ ∈ t.answers ∧ t.Settled) link := by
  unfold readFramedMessage
  apply StreamProg.returns_bind
  apply StreamProg.returns_ofExcept
  intro _ _
  apply StreamProg.returns_bind
  apply returns_readExactOrIpc
  intro moves hcount
  have hhead := (h.foldl_serve serverLimits hpayload List.prefix_rfl moves).consume serverLimits
    lengthPrefixBytes
  generalize moves.foldl (duplex serverLimits).peer link = t at hcount hhead
  have hlength : (((duplex serverLimits).arrived t).take lengthPrefixBytes).length = 4 :=
    List.length_take_of_le hcount
  rw [List.nil_append] at hhead
  generalize ((duplex serverLimits).arrived t).take lengthPrefixBytes = got at hhead hlength
  have hgot : got ≠ [] := by
    intro hnil
    rw [hnil] at hlength
    cases hlength
  simp only
  split_ifs with hlarge
  · trivial
  apply returns_readExactOrIpc
  intro moves' hcount'
  have hwhole := (hhead.foldl_serve serverLimits hpayload List.prefix_rfl moves').consume
    serverLimits (fromBeBytes got)
  generalize moves'.foldl (duplex serverLimits).peer ((duplex serverLimits).consume
    lengthPrefixBytes t) = u at hcount' hwhole
  obtain ⟨response, hanswer, hserver, hrequest, hresponse, hreply⟩ :=
    hwhole.answered_of_got (List.append_ne_nil_of_left_ne_nil hgot _)
  rw [List.append_assoc, List.append_assoc got] at hreply
  -- the first part is the length of the response
  obtain ⟨hlen, hbody⟩ := List.append_inj hreply (by rw [hlength]; rfl)
  have hsize : fromBeBytes got = response.length := by
    rw [hlen, fromBeBytes_toBeBytes hresponse]
  rw [hsize] at hcount' hserver hrequest hanswer hbody ⊢
  have htake : (((duplex serverLimits).arrived u).take response.length).length =
      response.length := List.length_take_of_le hcount'
  obtain ⟨heq, hnil⟩ := List.append_inj (hbody.trans (List.append_nil response).symm) htake
  obtain ⟨hclient, hunsent⟩ := List.append_eq_nil_iff.mp hnil
  refine ⟨?_, hclient, Or.inr ⟨hserver, hrequest, hunsent⟩⟩
  rw [heq]
  exact hanswer

theorem Settled.exchange {link : Link} (h : link.Settled) (payload : List UInt8) :
    Exchange link.written payload [] [] link := by
  obtain ⟨hclient, hclosed | ⟨hserver, hrequest, hunsent⟩⟩ := h
  · exact .closed hclosed hclient rfl
  · refine .waiting ?_ hserver hrequest hunsent hclient rfl
    rw [written, hserver]
    rfl

/-- After the write the server has the whole frame before it, or has answered it. -/
theorem returns_writeFramedMessage {serverLimits limits : IpcLimits} {payload : List UInt8}
    {link : Link} (h : link.Settled) :
    (writeFramedMessage payload limits).Returns (duplex serverLimits)
      (fun _ t => payload.length < 2 ^ 32 ∧
        Exchange link.written payload (lengthFrame payload) [] t) link := by
  unfold writeFramedMessage
  apply StreamProg.returns_bind
  apply StreamProg.returns_ofExcept
  intro _ hcheck
  have hpayload := (checkMessage_eq_ok.mp hcheck).2.2
  have hstart : ([] : List UInt8) ++ toBeBytes payload.length <+: lengthFrame payload :=
    List.prefix_append _ _
  apply StreamProg.returns_bind
  apply returns_writeAllOrIpc
  intro moves
  have hlength := ((h.exchange payload).foldl_serve serverLimits hpayload List.nil_prefix
    moves).write serverLimits _ hstart
  apply StreamProg.returns_bind
  apply returns_writeAllOrIpc
  intro moves'
  have hwhole := (hlength.foldl_serve serverLimits hpayload hstart moves').write serverLimits
    payload List.prefix_rfl
  apply returns_flushOrIpc
  intro moves''
  have hflushed := (hwhole.foldl_serve serverLimits hpayload List.prefix_rfl moves'').write
    serverLimits [] (by simp only [List.append_nil, List.prefix_rfl])
  rw [List.append_nil] at hflushed
  exact ⟨hpayload, hflushed⟩

end Link

/-- On a settled connection a call that returns has read the response to its request, and
leaves the connection settled. -/
theorem RemoteControlClient.returns_call {codec : JsonCodec} {client : RemoteControlClient}
    {serverLimits : IpcLimits} {arguments : CallArguments} {link : Link} (h : link.Settled) :
    (client.call codec arguments).Returns (Link.duplex serverLimits)
      (fun response t => (∃ answer ∈ t.answers, answer.start = link.written ∧
        answer.stop = t.written ∧ codec.readResponse answer.response = .ok response) ∧
          t.Settled) link := by
  unfold RemoteControlClient.call
  apply StreamProg.returns_bind
  apply StreamProg.returns_ofExcept
  intro frameBytes _
  apply StreamProg.returns_bind
  apply StreamProg.returns_mono (Link.returns_writeFramedMessage h)
  rintro _ t ⟨hpayload, hexchange⟩
  apply StreamProg.returns_bind
  apply StreamProg.returns_mono (Link.returns_readFramedMessage hpayload hexchange)
  rintro responseBytes u ⟨hanswer, hsettled⟩
  apply StreamProg.returns_ofExcept
  intro response hread
  exact ⟨⟨_, hanswer, rfl, rfl, hread⟩, hsettled⟩

/-! ## Runs -/

section Runs

variable {codec : JsonCodec} {serverLimits : IpcLimits}

theorem kept_answers (serverLimits : IpcLimits) (answers : List Answer) :
    StreamProg.Kept (Link.duplex serverLimits) fun link => answers ⊆ link.answers where
  write _ _ h := h
  consume _ _ h := h
  peer move link h := List.Subset.trans h (Link.answers_subset_serve serverLimits link move)

theorem Finished.Matched.mono {answers answers' : List Answer} {call : Finished}
    (h : call.Matched codec answers) (hsub : answers ⊆ answers') :
    call.Matched codec answers' := by
  intro response hresult
  obtain ⟨answer, hmem, hplace⟩ := h response hresult
  exact ⟨answer, hsub hmem, hplace⟩

/-- A call on a settled connection keeps the replies matched. -/
theorem Connection.RepliesMatch.call {connection : Connection}
    (h : connection.RepliesMatch codec) (hsettled : connection.link.Settled)
    (event : CallEvent) : (connection.call codec serverLimits event).RepliesMatch codec := by
  intro finished hmem
  rcases List.mem_append.mp hmem with hold | hnew
  · exact (h finished hold).mono ((kept_answers serverLimits _).exec _ 0 fun a ha => ha)
  · rw [List.mem_singleton.mp hnew]
    intro response hresult
    exact (StreamProg.exec_returns (RemoteControlClient.returns_call hsettled)
      (Prod.ext hresult rfl)).1

/-- In a run where every call finds the connection settled, every reply matches. -/
theorem replies_match_of_settled (codec : JsonCodec) (serverLimits : IpcLimits)
    (client : RemoteControlClient) (calls : List CallEvent) (h : ∀ i < calls.length,
      (stateAt (Connection.call codec serverLimits) { client } calls i).link.Settled) (n : Nat) :
    (stateAt (Connection.call codec serverLimits) { client } calls n).RepliesMatch codec := by
  apply stateAt_induction
  · intro finished hmem
    exact absurd hmem List.not_mem_nil
  · intro i hi hmatch
    exact hmatch.call (h i hi) calls[i]

end Runs

/-! ## A late reply -/

/-- What is written is before the server when the client begins to read. -/
theorem RemoteControlClient.exec_call {codec : JsonCodec} {serverLimits : IpcLimits}
    {self : RemoteControlClient} {arguments : CallArguments} {payload : List UInt8}
    {turns : Nat → Turn ServerMove} (hrequest : self.requestBytes codec arguments = .ok payload)
    (hcheck : checkMessage payload self.limits = .ok ()) (hturns : ∀ n < 3, turns n = {})
    (link : Link) :
    (self.call codec arguments).exec (Link.duplex serverLimits) turns 0 link =
      (readFramedMessage self.limits >>= fun bytes =>
        StreamProg.ofExcept (codec.readResponse bytes)).exec (Link.duplex serverLimits) turns 3
          { link with toServer := link.toServer ++ lengthFrame payload } := by
  unfold RemoteControlClient.call writeFramedMessage
  rw [hrequest, StreamProg.ofExcept_ok_bind, hcheck, StreamProg.ofExcept_ok_bind]
  show (StreamProg.writeAll (toBeBytes payload.length) _).exec _ turns 0 link = _
  rw [StreamProg.exec, hturns 0 (by decide)]
  show (StreamProg.writeAll payload _).exec _ turns 1 _ = _
  rw [StreamProg.exec, hturns 1 (by decide)]
  show (StreamProg.writeAll [] _).exec _ turns 2 _ = _
  rw [StreamProg.exec, hturns 2 (by decide)]
  have hwritten : link.toServer ++ toBeBytes payload.length ++ payload ++ [] =
      link.toServer ++ lengthFrame payload := by
    rw [List.append_nil, List.append_assoc]
    rfl
  rw [← hwritten]
  rfl

theorem exec_readFramedMessage_late {limits serverLimits : IpcLimits} {α : Type}
    {f : List UInt8 → IpcStream α} {turns : Nat → Turn ServerMove} {n : Nat}
    (hvalid : limits.validate = .ok ()) (hturn : turns n = { failure := some (0, .readTimeout) })
    (link : Link) :
    (readFramedMessage limits >>= f).exec (Link.duplex serverLimits) turns n link =
      (.error (.ipc "timed out reading IPC message"), link) := by
  unfold readFramedMessage
  rw [hvalid, StreamProg.ofExcept_ok_bind]
  show (StreamProg.readExact 4 _).exec _ turns n link = _
  rw [StreamProg.exec, hturn]
  rfl

theorem exec_readFramedMessage {limits serverLimits : IpcLimits} {α : Type}
    {f : List UInt8 → IpcStream α} {turns : Nat → Turn ServerMove} {n : Nat}
    {link moved : Link} {response rest : List UInt8}
    (hcheck : checkMessage response limits = .ok ()) (hnext : turns (n + 1) = {})
    (hfailure : (turns n).failure = none)
    (hmoved : (turns n).moves.foldl (Link.serve serverLimits) link = moved)
    (hclient : moved.toClient = lengthFrame response ++ rest) :
    (readFramedMessage limits >>= f).exec (Link.duplex serverLimits) turns n link =
      (f response).exec (Link.duplex serverLimits) turns (n + 2)
        { moved with toClient := rest } := by
  obtain ⟨hvalid, hmax, hencode⟩ := checkMessage_eq_ok.mp hcheck
  have hlength : (Link.duplex serverLimits).arrived moved =
      toBeBytes response.length ++ (response ++ rest) := by
    rw [← List.append_assoc]
    exact hclient
  have hbody : (Link.duplex serverLimits).arrived ((Link.duplex serverLimits).consume
      lengthPrefixBytes moved) = response ++ rest :=
    congrArg (List.drop lengthPrefixBytes) hlength
  unfold readFramedMessage
  rw [hvalid, StreamProg.ofExcept_ok_bind]
  show (StreamProg.readExact lengthPrefixBytes _).exec _ turns n link = _
  rw [StreamProg.exec_readExact hfailure hmoved hlength
    (show (toBeBytes response.length).length = lengthPrefixBytes from rfl)]
  show ((if fromBeBytes (toBeBytes response.length) > limits.maxMessageBytes then _
    else readExactOrIpc _ _) >>= f).exec _ turns (n + 1) _ = _
  rw [fromBeBytes_toBeBytes hencode, if_neg (Nat.not_lt.mpr hmax)]
  show (StreamProg.readExact response.length _).exec _ turns (n + 1) _ = _
  rw [StreamProg.exec_readExact (by rw [hnext]) (by rw [hnext]; rfl) hbody rfl]
  have hrest : (moved.toClient.drop lengthPrefixBytes).drop response.length = rest := by
    rw [show moved.toClient.drop lengthPrefixBytes = response ++ rest from hbody, List.drop_left]
  rw [← hrest]
  rfl

namespace Link

theorem nextFrame_append {limits : IpcLimits} {payload : List UInt8} (rest : List UInt8)
    (h : checkMessage payload limits = .ok ()) :
    nextFrame limits (lengthFrame payload ++ rest) = some (.ok payload) := by
  obtain ⟨hvalid, hmax, hencode⟩ := checkMessage_eq_ok.mp h
  have hsize : (lengthFrame payload ++ rest).length = 4 + payload.length + rest.length := by
    rw [List.length_append, length_lengthFrame]
  have hlength : (lengthFrame payload ++ rest).take lengthPrefixBytes =
      toBeBytes payload.length := rfl
  have hbody : (lengthFrame payload ++ rest).drop lengthPrefixBytes = payload ++ rest := rfl
  unfold nextFrame
  rw [hvalid]
  simp only
  rw [hlength, fromBeBytes_toBeBytes hencode, hbody, List.take_left, hsize,
    if_neg (by rw [lengthPrefixBytes]; omega), if_neg (Nat.not_lt.mpr hmax),
    if_neg (by rw [lengthPrefixBytes]; omega)]

/-- The server reads, processes and answers. -/
def answering (response : List UInt8) : List ServerMove :=
  [.read, .process response, .write (lengthFrame response).length]

/-- An idle server answers the frame that is first. -/
theorem foldl_answering {limits : IpcLimits} (link : Link) {payload response : List UInt8}
    (rest : List UInt8) (hopen : link.closed = false) (hidle : link.request = none)
    (hunsent : link.unsent = []) (hserver : link.toServer = lengthFrame payload ++ rest)
    (hrequest : checkMessage payload limits = .ok ())
    (hresponse : checkMessage response limits = .ok ()) :
    (answering response).foldl (serve limits) link = {
        toServer := rest
        taken := link.taken + (lengthFrame payload).length
        toClient := link.toClient ++ lengthFrame response
        answers := link.answers ++
          [⟨⟨link.taken, link.taken + (lengthFrame payload).length, payload⟩, response⟩] } := by
  have hnext : nextFrame limits link.toServer = some (.ok payload) := by
    rw [hserver, nextFrame_append rest hrequest]
  have hrest : link.toServer.drop (lengthPrefixBytes + payload.length) = rest := by
    rw [hserver]
    exact List.drop_left' (length_lengthFrame payload)
  have hread : serve limits link .read =
      { link with
        toServer := rest
        taken := link.taken + (lengthFrame payload).length
        request := some
          ⟨link.taken, link.taken + (lengthFrame payload).length, payload⟩ } := by
    unfold serve
    rw [if_neg (by simp [hopen])]
    dsimp only
    rw [read_of_idle hidle hunsent, hnext]
    dsimp only
    rw [hrest, length_lengthFrame, ← Nat.add_assoc]
    rfl
  simp only [answering, List.foldl_cons, List.foldl_nil, hread]
  simp [serve, process, hopen, hresponse]

end Link

/-- The server answers both requests before the second call reads. -/
def answeredBefore (responses : List (List UInt8)) (operation : Nat) : Turn ServerMove :=
  if operation = 3 then { moves := responses.flatMap Link.answering } else {}

/-- The server does not answer before the read of the client is given up. -/
def answeredLate (operation : Nat) : Turn ServerMove :=
  if operation = 3 then { failure := some (0, .readTimeout) } else {}

section Late

variable {codec : JsonCodec} {limits : IpcLimits} (connection : Connection)
  {arguments : CallArguments} {request : List UInt8}

/-- A call whose read is given up leaves its request on the way. -/
theorem call_answeredLate (hclient : connection.client.limits = limits)
    (hrequest : connection.client.requestBytes codec arguments = .ok request)
    (hfits : checkMessage request limits = .ok ()) :
    connection.call codec limits ⟨arguments, answeredLate⟩ = {
        client := connection.client.afterCall
        link := { connection.link with
          toServer := connection.link.toServer ++ lengthFrame request }
        finished := connection.finished ++ [⟨connection.link.written,
          connection.link.written + (lengthFrame request).length,
          .error (.ipc "timed out reading IPC message")⟩] } := by
  have hturns : ∀ n < 3, answeredLate n = {} := fun n hn => if_neg (by omega)
  have hvalid := (checkMessage_eq_ok.mp hfits).1
  rw [← hclient] at hfits hvalid
  unfold Connection.call
  rw [RemoteControlClient.exec_call hrequest hfits hturns, exec_readFramedMessage_late hvalid rfl]
  simp only [Link.written, List.length_append, Nat.add_assoc]

/-- A call that is answered before its read returns the reply. -/
theorem call_answered {response : List UInt8} (hclient : connection.client.limits = limits)
    (hrequest : connection.client.requestBytes codec arguments = .ok request)
    (hopen : connection.link.closed = false) (hidle : connection.link.toClient = [])
    (hserver : connection.link.toServer = []) (hnone : connection.link.request = none)
    (hunsent : connection.link.unsent = []) (hfits : checkMessage request limits = .ok ())
    (hresponse : checkMessage response limits = .ok ()) :
    connection.call codec limits ⟨arguments, answeredBefore [response]⟩ =
      { client := connection.client.afterCall
        link :=
          { taken := connection.link.taken + (lengthFrame request).length
            answers := connection.link.answers ++ [⟨⟨connection.link.taken,
              connection.link.taken + (lengthFrame request).length, request⟩, response⟩] }
        finished := connection.finished ++ [⟨connection.link.written,
          connection.link.taken + (lengthFrame request).length,
          codec.readResponse response⟩] } := by
  have hturns : ∀ n < 3, answeredBefore [response] n = {} := fun n hn => if_neg (by omega)
  have hmoved : (answeredBefore [response] 3).moves.foldl (Link.serve limits)
      { connection.link with toServer := connection.link.toServer ++ lengthFrame request } =
      { toServer := []
        taken := connection.link.taken + (lengthFrame request).length
        toClient := lengthFrame response ++ []
        closed := false
        answers := connection.link.answers ++ [⟨⟨connection.link.taken,
          connection.link.taken + (lengthFrame request).length, request⟩, response⟩] } := by
    show (Link.answering response).foldl _ _ = _
    rw [Link.foldl_answering { connection.link with
        toServer := connection.link.toServer ++ lengthFrame request } [] hopen hnone hunsent
        (by rw [hserver, List.append_nil, List.nil_append]) hfits hresponse]
    simp only [hidle, List.nil_append, List.append_nil]
  have hfitsClient := hfits
  have hresponseClient := hresponse
  rw [← hclient] at hfitsClient hresponseClient
  unfold Connection.call
  rw [RemoteControlClient.exec_call hrequest hfitsClient hturns,
    exec_readFramedMessage hresponseClient rfl rfl hmoved rfl]
  cases hread : codec.readResponse response <;> rfl

/-- A call before whose read the server answers an earlier request, too, returns the reply to
the earlier one. -/
theorem call_answeredBefore {client : RemoteControlClient}
    {earlier firstResponse secondResponse : List UInt8} (hclient : connection.client = client)
    (hlimits : client.limits = limits)
    (hrequest : client.requestBytes codec arguments = .ok request)
    (hopen : connection.link.closed = false) (hidle : connection.link.toClient = [])
    (hserver : connection.link.toServer = lengthFrame earlier)
    (hnone : connection.link.request = none) (hunsent : connection.link.unsent = [])
    (hfits : ∀ message ∈ [earlier, request, firstResponse, secondResponse],
      checkMessage message limits = .ok ()) :
    connection.call codec limits ⟨arguments, answeredBefore [firstResponse, secondResponse]⟩ =
      { client := client.afterCall
        link :=
          { taken := connection.link.written + (lengthFrame request).length
            toClient := lengthFrame secondResponse
            answers := connection.link.answers ++
              [⟨⟨connection.link.taken, connection.link.written, earlier⟩, firstResponse⟩,
                ⟨⟨connection.link.written, connection.link.written + (lengthFrame request).length,
                  request⟩, secondResponse⟩] }
        finished := connection.finished ++ [⟨connection.link.written,
          connection.link.written + (lengthFrame request).length,
          codec.readResponse firstResponse⟩] } := by
  simp only [List.forall_mem_cons] at hfits
  obtain ⟨hearlier, hfits, hfirst, hsecond, -⟩ := hfits
  have hturns : ∀ n < 3, answeredBefore [firstResponse, secondResponse] n = {} :=
    fun n hn => if_neg (by omega)
  have hwritten : connection.link.written = connection.link.taken +
      (lengthFrame earlier).length := by
    rw [Link.written, hserver]
  have hmoved : (answeredBefore [firstResponse, secondResponse] 3).moves.foldl
      (Link.serve limits)
      { connection.link with toServer := connection.link.toServer ++ lengthFrame request } =
      { toServer := []
        taken := connection.link.written + (lengthFrame request).length
        toClient := lengthFrame firstResponse ++ lengthFrame secondResponse
        closed := false
        answers := connection.link.answers ++
          [⟨⟨connection.link.taken, connection.link.written, earlier⟩, firstResponse⟩,
            ⟨⟨connection.link.written, connection.link.written + (lengthFrame request).length,
              request⟩, secondResponse⟩] } := by
    show (Link.answering firstResponse ++ Link.answering secondResponse).foldl _ _ = _
    rw [List.foldl_append, Link.foldl_answering { connection.link with
        toServer := connection.link.toServer ++ lengthFrame request } (lengthFrame request) hopen
        hnone hunsent (congrArg (· ++ lengthFrame request) hserver) hearlier hfirst,
      Link.foldl_answering _ [] rfl rfl rfl (List.append_nil _).symm hfits hsecond]
    simp only [hidle, List.nil_append, hwritten, List.append_assoc, List.cons_append]
  have hfitsClient := hfits
  have hfirstClient := hfirst
  rw [← hlimits] at hfitsClient hfirstClient
  subst hclient
  unfold Connection.call
  rw [RemoteControlClient.exec_call hrequest hfitsClient hturns,
    exec_readFramedMessage hfirstClient rfl rfl hmoved rfl]
  cases hread : codec.readResponse firstResponse <;> rfl

end Late

/-- After a read that was given up, the next call returns the reply to the request before
it. -/
theorem late_reply {codec : JsonCodec} {client : RemoteControlClient}
    {first second : CallArguments} {firstRequest secondRequest : List UInt8}
    (firstResponse secondResponse : List UInt8)
    (hfirst : client.requestBytes codec first = .ok firstRequest)
    (hsecond : client.afterCall.requestBytes codec second = .ok secondRequest)
    (hfits : ∀ message ∈ [firstRequest, secondRequest, firstResponse, secondResponse],
      checkMessage message client.limits = .ok ()) :
    stateAt (Connection.call codec client.limits) { client } [⟨first, answeredLate⟩,
        ⟨second, answeredBefore [firstResponse, secondResponse]⟩] 2 =
      { client := client.afterCall.afterCall
        link :=
          { taken := (lengthFrame firstRequest).length + (lengthFrame secondRequest).length
            toClient := lengthFrame secondResponse
            answers := [⟨⟨0, (lengthFrame firstRequest).length, firstRequest⟩, firstResponse⟩,
              ⟨⟨(lengthFrame firstRequest).length,
                (lengthFrame firstRequest).length + (lengthFrame secondRequest).length,
                secondRequest⟩, secondResponse⟩] }
        finished := [⟨0, (lengthFrame firstRequest).length,
            .error (.ipc "timed out reading IPC message")⟩,
          ⟨(lengthFrame firstRequest).length,
            (lengthFrame firstRequest).length + (lengthFrame secondRequest).length,
            codec.readResponse firstResponse⟩] } := by
  show ((({ client } : Connection).call codec client.limits ⟨first, answeredLate⟩).call codec
    client.limits ⟨second, answeredBefore [firstResponse, secondResponse]⟩) = _
  rw [call_answeredLate { client } rfl hfirst (hfits firstRequest List.mem_cons_self)]
  rw [call_answeredBefore _ ?_ ?_ hsecond ?_ ?_ ?_ rfl rfl hfits]
  · simp only [Link.written, List.nil_append, List.length_nil, Nat.add_zero, Nat.zero_add,
      List.cons_append]
  · rfl
  · rfl
  · rfl
  · rfl
  · exact List.nil_append _

def asciiBytes (text : String) : List UInt8 := text.toList.map fun c => UInt8.ofNat c.toNat

def quotedText (text : String) : String := "\"" ++ text ++ "\""

def idText : Option RpcId → String
  | none => "null"
  | some (.string id) => quotedText id
  | some (.number id) => toString id.toNat

def certificateText (certificate : DeviceCertificate) : String :=
  "\x7b\"certificate_id\":" ++ quotedText certificate.certificateId ++
    ",\"fabric_id\":" ++ quotedText certificate.fabricId ++
    ",\"device_id\":" ++ quotedText certificate.deviceId ++
    ",\"signing_public_key_hex\":" ++ quotedText certificate.signingPublicKeyHex ++
    ",\"network_public_key_hex\":" ++ quotedText certificate.networkPublicKeyHex ++
    ",\"issuer_root_public_key_hex\":" ++ quotedText certificate.issuerRootPublicKeyHex ++
    ",\"issued_at_unix_seconds\":" ++ toString certificate.issuedAtUnixSeconds.toNat ++
    ",\"expires_at_unix_seconds\":" ++ toString certificate.expiresAtUnixSeconds.toNat ++
    ",\"signature_hex\":" ++ quotedText certificate.signatureHex ++ "\x7d"

def requestText (request : RpcRequest) : String :=
  "\x7b\"jsonrpc\":" ++ quotedText request.jsonrpc ++ ",\"id\":" ++ idText request.id ++
    ",\"method\":" ++ quotedText request.method ++ ",\"params\":" ++ request.params ++ "\x7d"

def frameText (frame : RemoteControlFrame) : String :=
  "\x7b\"control\":\x7b\"protocol_version\":" ++ toString frame.control.protocolVersion.toNat ++
    ",\"sent_at_unix_seconds\":" ++ toString frame.control.sentAtUnixSeconds.toNat ++
    ",\"replay_nonce\":" ++ quotedText frame.control.replayNonce ++
    "\x7d,\"device_certificate\":" ++ certificateText frame.deviceCertificate ++
    ",\"rpc\":" ++ frame.rpc ++ "\x7d"

def devicesResult : String := "\x7b\"devices\":[]\x7d"

def runsResult : String := "\x7b\"runs\":[]\x7d"

def devicesReply : List UInt8 :=
  asciiBytes "\x7b\"jsonrpc\":\"2.0\",\"id\":\"remote-1\",\"result\":\x7b\"devices\":[]\x7d\x7d"

def runsReply : List UInt8 :=
  asciiBytes "\x7b\"jsonrpc\":\"2.0\",\"id\":\"remote-2\",\"result\":\x7b\"runs\":[]\x7d\x7d"

def devicesResponse : RpcResponse :=
  ⟨rpcJsonrpcVersion, some (.string "remote-1"), some devicesResult, none⟩

def runsResponse : RpcResponse :=
  ⟨rpcJsonrpcVersion, some (.string "remote-2"), some runsResult, none⟩

/-- A writer for strings that need no escapes and texts of at most 4096 characters, and a
reader for two replies. -/
def plainCodec : JsonCodec where
  requestText request := .ok (requestText request)
  frameBytes frame := .ok ((asciiBytes (frameText frame)).take 4096)
  readResponse bytes :=
    if bytes = devicesReply then .ok devicesResponse
    else if bytes = runsReply then .ok runsResponse
    else .error (.json "expected value at line 1 column 1")

def pairedClient : RemoteControlClient where
  limits := .default
  deviceCertificate :=
    { certificateId := "cert_0123456789abcdef01234567"
      fabricId := "f_1"
      deviceId := "device-1"
      signingPublicKeyHex := "a0a1a2a3a4a5a6a7a8a9aaabacadaeafa0a1a2a3a4a5a6a7a8a9aaabacadaeaf"
      networkPublicKeyHex := "b0b1b2b3b4b5b6b7b8b9babbbcbdbebfb0b1b2b3b4b5b6b7b8b9babbbcbdbebf"
      issuerRootPublicKeyHex :=
        "c0c1c2c3c4c5c6c7c8c9cacbcccdcecfc0c1c2c3c4c5c6c7c8c9cacbcccdcecf"
      issuedAtUnixSeconds := 1000
      expiresAtUnixSeconds := 4600
      signatureHex := "d0d1d2d3d4d5d6d7d8d9dadbdcdddedfd0d1d2d3d4d5d6d7d8d9dadbdcdddedf" ++
        "d0d1d2d3d4d5d6d7d8d9dadbdcdddedfd0d1d2d3d4d5d6d7d8d9dadbdcdddedf" }
  protocolVersion := controlProtocolVersion
  nextRequestId := 1

def devicesCall : CallArguments :=
  ⟨"devices.list", "null", 1000, .ok "00112233445566778899aabbccddeeff"⟩

def runsCall : CallArguments :=
  ⟨"runs.list", "null", 1040, .ok "ffeeddccbbaa99887766554433221100"⟩

/-- The read of the first call is given up, and the server answers both calls before the read
of the second. -/
def lateReplyRun : List CallEvent :=
  [⟨devicesCall, answeredLate⟩, ⟨runsCall, answeredBefore [devicesReply, runsReply]⟩]

theorem checkMessage_default {payload : List UInt8} (h : payload.length ≤ 4096) :
    checkMessage payload .default = .ok () :=
  checkMessage_eq_ok.mpr ⟨rfl, Nat.le_trans h (by decide), Nat.lt_of_le_of_lt h (by decide)⟩

theorem runsReply_ne_devicesReply : runsReply ≠ devicesReply := by
  rw [runsReply, devicesReply, asciiBytes, asciiBytes, String.toList_ofList, String.toList_ofList]
  decide

theorem length_replies_le : devicesReply.length ≤ 4096 ∧ runsReply.length ≤ 4096 := by
  rw [runsReply, devicesReply, asciiBytes, asciiBytes, String.toList_ofList, String.toList_ofList]
  decide

theorem readResponse_devicesReply : plainCodec.readResponse devicesReply = .ok devicesResponse := by
  simp only [plainCodec, if_true]

theorem readResponse_runsReply : plainCodec.readResponse runsReply = .ok runsResponse := by
  simp only [plainCodec, if_neg runsReply_ne_devicesReply, if_true]

/-- The second call returns the reply to the first. -/
theorem late_reply_is_returned :
    ((stateAt (Connection.call plainCodec pairedClient.limits) { client := pairedClient }
        lateReplyRun 2).finished.map fun call => call.result) =
      [.error (.ipc "timed out reading IPC message"), .ok devicesResponse] ∧
    ¬(stateAt (Connection.call plainCodec pairedClient.limits) { client := pairedClient }
      lateReplyRun 2).RepliesMatch plainCodec := by
  have hrequests : ∃ first second, pairedClient.requestBytes plainCodec devicesCall = .ok first ∧
      pairedClient.afterCall.requestBytes plainCodec runsCall = .ok second ∧
      first.length ≤ 4096 ∧ second.length ≤ 4096 :=
    ⟨_, _, rfl, rfl, List.length_take_le _ _, List.length_take_le _ _⟩
  obtain ⟨first, second, hfirst, hsecond, hfits, hfits'⟩ := hrequests
  have hall : ∀ message ∈ [first, second, devicesReply, runsReply],
      checkMessage message pairedClient.limits = .ok () := by
    simp only [List.forall_mem_cons, List.not_mem_nil, false_imp_iff, implies_true, and_true]
    exact ⟨checkMessage_default hfits, checkMessage_default hfits',
      checkMessage_default length_replies_le.1, checkMessage_default length_replies_le.2⟩
  rw [lateReplyRun, late_reply devicesReply runsReply hfirst hsecond hall,
    readResponse_devicesReply]
  refine ⟨rfl, ?_⟩
  intro hmatch
  obtain ⟨answer, hmem, hstart, -, hresponse⟩ :=
    hmatch _ (List.mem_cons_of_mem _ List.mem_cons_self) devicesResponse rfl
  simp only [List.mem_cons, List.not_mem_nil, or_false] at hmem
  rcases hmem with rfl | rfl
  · -- the first request begins where the stream does
    have hpositive : 0 < (lengthFrame first).length := by
      rw [length_lengthFrame]
      omega
    exact absurd hstart (Nat.ne_of_lt hpositive)
  · rw [readResponse_runsReply] at hresponse
    exact absurd hresponse (by decide)

/-- Both calls are answered before they read. -/
def timelyRun : List CallEvent :=
  [⟨devicesCall, answeredBefore [devicesReply]⟩, ⟨runsCall, answeredBefore [runsReply]⟩]

theorem replies_match_of_settled_timely :
    (∀ i < timelyRun.length, (stateAt (Connection.call plainCodec .default)
      { client := pairedClient } timelyRun i).link.Settled) ∧
    ∀ n, (stateAt (Connection.call plainCodec .default) { client := pairedClient } timelyRun
      n).RepliesMatch plainCodec := by
  have hfirst : ({ client := pairedClient } : Connection).call plainCodec .default
      ⟨devicesCall, answeredBefore [devicesReply]⟩ = _ :=
    call_answered _ rfl rfl rfl rfl rfl rfl rfl (checkMessage_default (List.length_take_le _ _))
      (checkMessage_default length_replies_le.1)
  have hsettled : ∀ i < timelyRun.length, (stateAt (Connection.call plainCodec .default)
      { client := pairedClient } timelyRun i).link.Settled := by
    intro i hi
    match i, hi with
    | 0, _ => exact ⟨rfl, Or.inr ⟨rfl, rfl, rfl⟩⟩
    | 1, _ =>
      show (({ client := pairedClient } : Connection).call plainCodec .default
        ⟨devicesCall, answeredBefore [devicesReply]⟩).link.Settled
      rw [hfirst]
      exact ⟨rfl, Or.inr ⟨rfl, rfl, rfl⟩⟩
  exact ⟨hsettled, fun n => replies_match_of_settled plainCodec .default pairedClient timelyRun
    hsettled n⟩

end DevRelay.Transport
