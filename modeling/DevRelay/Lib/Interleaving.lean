import DevRelay.Lib.Run

/-!
# Interleaved calls

Calls that share a state run at the same time: a call is a `Thread` of atomic
steps, and between two of them the other calls may take any number of steps.  A
`Pool` holds the calls that have arrived, and a run of the pool is a list of
moves, each the arrival of a call or the next step of one.

Reasoning is by rely and guarantee.  The rely relates two states between which
others may have acted, the guarantee two states between which the thread itself
acts; a thread that `Obeys` its contract keeps its guarantee whatever the others
do within the rely, and so does a pool in which the guarantee of every call is
part of the rely of the calls it may run beside.
-/

namespace DevRelay.Lib

/-- A call over a shared state `σ`.  An atomic step finds an input of type `ι`
outside the state (a clock, generated names, failures of the system). -/
inductive Thread (ι σ ε α : Type) where
  | done (a : α)
  | fail (e : ε)
  | atomic (act : ι → σ → σ) (next : ι → σ → Thread ι σ ε α)

namespace Thread

variable {ι σ ε α β : Type}

def bind : Thread ι σ ε α → (α → Thread ι σ ε β) → Thread ι σ ε β
  | done a, f => f a
  | fail e, _ => fail e
  | atomic act next, f => atomic act fun i s => (next i s).bind f

instance : Monad (Thread ι σ ε) where
  pure := done
  bind := bind

theorem bind_assoc {γ : Type} (p : Thread ι σ ε α) (f : α → Thread ι σ ε β)
    (g : β → Thread ι σ ε γ) : p >>= f >>= g = p >>= fun a => f a >>= g := by
  induction p with
  | done a => rfl
  | fail e => rfl
  | atomic act next ih =>
    exact congrArg (atomic act) (funext fun i => funext fun s => ih i s)

/-- Unwrap the value of a fallible pure function; no step is taken. -/
def ofExcept (r : Except ε α) : Thread ι σ ε α :=
  match r with
  | .ok a => done a
  | .error e => fail e

/-- One step that may change the state and may fail. -/
def atomically (f : ι → σ → Except ε α × σ) : Thread ι σ ε α :=
  atomic (fun i s => (f i s).2) fun i s => ofExcept (f i s).1

/-- One step that looks at the state. -/
def observe (f : ι → σ → Except ε α) : Thread ι σ ε α := atomically fun i s => (f i s, s)

/-- A thread over a part of a state, with a part of its inputs. -/
def embed {κ τ δ : Type} (input : ι → κ) (get : σ → τ) (set : τ → σ → σ) (err : δ → ε) :
    Thread κ τ δ α → Thread ι σ ε α
  | done a => done a
  | fail e => fail (err e)
  | atomic act next =>
    atomic (fun i s => set (act (input i) (get s)) s) fun i s =>
      embed input get set err (next (input i) (get s))

section

variable {κ τ δ : Type} {input : ι → κ} {get : σ → τ} {set : τ → σ → σ} {err : δ → ε}

@[simp] theorem embed_bind (p : Thread κ τ δ α) (f : α → Thread κ τ δ β) :
    (p >>= f).embed input get set err =
      p.embed input get set err >>= fun a => (f a).embed input get set err := by
  induction p with
  | done a => rfl
  | fail e => rfl
  | atomic act next ih =>
    apply congrArg (atomic fun i s => set (act (input i) (get s)) s)
    funext i s
    exact ih (input i) (get s)

@[simp] theorem embed_ofExcept (r : Except δ α) :
    (ofExcept r : Thread κ τ δ α).embed input get set err = ofExcept (r.mapError err) := by
  cases r with
  | ok a => rfl
  | error e => rfl

theorem embed_atomically (f : κ → τ → Except δ α × τ) :
    (atomically f).embed input get set err =
      atomically fun i s =>
        ((f (input i) (get s)).1.mapError err, set (f (input i) (get s)).2 s) := by
  apply congrArg (atomic fun i s => set (f (input i) (get s)).2 s)
  funext i s
  exact embed_ofExcept _

/-- Looking at a part is looking at the whole. -/
theorem embed_observe (hset : ∀ s, set (get s) s = s) (f : κ → τ → Except δ α) :
    (observe f).embed input get set err =
      observe fun i s => (f (input i) (get s)).mapError err := by
  rw [observe, embed_atomically, observe]
  apply congrArg atomically
  funext i s
  rw [hset s]

end

/-- The thread when no other takes a step: its `n`-th step finds `input n`. -/
def alone (input : Nat → ι) : Nat → Thread ι σ ε α → σ → Except ε α × σ
  | _, done a, s => (.ok a, s)
  | _, fail e, s => (.error e, s)
  | n, atomic act next, s => alone input (n + 1) (next (input n) s) (act (input n) s)

@[simp] theorem alone_pure (input : Nat → ι) (n : Nat) (a : α) (s : σ) :
    (pure a : Thread ι σ ε α).alone input n s = (.ok a, s) := rfl

@[simp] theorem alone_fail (input : Nat → ι) (n : Nat) (e : ε) (s : σ) :
    (fail e : Thread ι σ ε α).alone input n s = (.error e, s) := rfl

/-- A finished thread goes on with its continuation. -/
theorem alone_ofExcept_bind_ok {input : Nat → ι} {n : Nat} {r : Except ε α} {a : α}
    (h : r = .ok a) (k : α → Thread ι σ ε β) (s : σ) :
    ((ofExcept r : Thread ι σ ε α) >>= k).alone input n s = (k a).alone input n s := by
  rw [h]
  rfl

theorem alone_ofExcept_bind_error {input : Nat → ι} {n : Nat} {r : Except ε α} {e : ε}
    (h : r = .error e) (k : α → Thread ι σ ε β) (s : σ) :
    ((ofExcept r : Thread ι σ ε α) >>= k).alone input n s = (.error e, s) := by
  rw [h]
  rfl

theorem alone_bind_pure (p : Thread ι σ ε α) (f : α → β) (input : Nat → ι) (n : Nat) (s : σ) :
    (p >>= fun a => (pure (f a) : Thread ι σ ε β)).alone input n s =
      ((p.alone input n s).1.map f, (p.alone input n s).2) := by
  induction p generalizing n s with
  | done a => rfl
  | fail e => rfl
  | atomic act next ih => exact ih (input n) s (n + 1) (act (input n) s)

section

variable {input : Nat → ι} {n : Nat} {s t : σ}

theorem alone_atomically_bind_ok {f : ι → σ → Except ε α × σ} {a : α}
    (h : f (input n) s = (.ok a, t)) (k : α → Thread ι σ ε β) :
    (atomically f >>= k).alone input n s = (k a).alone input (n + 1) t := by
  show ((ofExcept (f (input n) s).1 : Thread ι σ ε α) >>= k).alone input (n + 1)
    (f (input n) s).2 = _
  rw [h]
  rfl

theorem alone_atomically_bind_error {f : ι → σ → Except ε α × σ} {e : ε}
    (h : f (input n) s = (.error e, t)) (k : α → Thread ι σ ε β) :
    (atomically f >>= k).alone input n s = (.error e, t) := by
  show ((ofExcept (f (input n) s).1 : Thread ι σ ε α) >>= k).alone input (n + 1)
    (f (input n) s).2 = _
  rw [h]
  rfl

theorem alone_atomically (f : ι → σ → Except ε α × σ) :
    (atomically f).alone input n s = f (input n) s := by
  show (ofExcept (f (input n) s).1 : Thread ι σ ε α).alone input (n + 1)
    (f (input n) s).2 = _
  rcases f (input n) s with ⟨a | e, t⟩
  · rfl
  · rfl

theorem alone_observe_bind_ok {f : ι → σ → Except ε α} {a : α}
    (h : f (input n) s = .ok a) (k : α → Thread ι σ ε β) :
    (observe f >>= k).alone input n s = (k a).alone input (n + 1) s :=
  alone_atomically_bind_ok (by rw [h]) k

theorem alone_observe_bind_error {f : ι → σ → Except ε α} {e : ε}
    (h : f (input n) s = .error e) (k : α → Thread ι σ ε β) :
    (observe f >>= k).alone input n s = (.error e, s) :=
  alone_atomically_bind_error (by rw [h]) k

end

/-! ## Rely and guarantee -/

/-- What a thread is promised and what it promises: the inputs it may find, a
property of the state that every step keeps, what others do between its steps,
and what it does itself. -/
structure Contract (ι σ : Type) where
  allowed : ι → σ → Prop
  invariant : σ → Prop
  rely : σ → σ → Prop
  guarantee : σ → σ → Prop

/-- From the state `s` on every step of the thread keeps the contract, and it ends
with a result and a state that satisfy `Q`. -/
def Obeys (C : Contract ι σ) (Q : Except ε α → σ → Prop) : Thread ι σ ε α → σ → Prop
  | done a, s => Q (.ok a) s
  | fail e, s => Q (.error e) s
  | atomic act next, s => ∀ t, C.invariant t → C.rely s t → ∀ i, C.allowed i t →
      C.invariant (act i t) ∧ C.guarantee t (act i t) ∧ Obeys C Q (next i t) (act i t)

variable {C : Contract ι σ} {Q : Except ε α → σ → Prop}

theorem obeys_ofExcept {r : Except ε α} {s : σ} (hr : Q r s) :
    (ofExcept r : Thread ι σ ε α).Obeys C Q s := by
  cases r with
  | ok a => exact hr
  | error e => exact hr

theorem obeys_ofExcept_bind {Q' : Except ε β → σ → Prop} {r : Except ε α}
    {k : α → Thread ι σ ε β} {s : σ} (hok : ∀ a, r = .ok a → (k a).Obeys C Q' s)
    (herror : ∀ e, r = .error e → Q' (.error e) s) :
    ((ofExcept r : Thread ι σ ε α) >>= k).Obeys C Q' s := by
  cases r with
  | ok a => exact hok a rfl
  | error e => exact herror e rfl

theorem obeys_atomically {f : ι → σ → Except ε α × σ} {s : σ}
    (hf : ∀ t, C.invariant t → C.rely s t → ∀ i, C.allowed i t →
      C.invariant (f i t).2 ∧ C.guarantee t (f i t).2 ∧ Q (f i t).1 (f i t).2) :
    (atomically f).Obeys C Q s := by
  intro t ht hst i hi
  obtain ⟨hinv, hguar, hq⟩ := hf t ht hst i hi
  exact ⟨hinv, hguar, obeys_ofExcept hq⟩

theorem obeys_observe {f : ι → σ → Except ε α} {s : σ} (hrefl : ∀ t, C.guarantee t t)
    (hf : ∀ t, C.invariant t → C.rely s t → ∀ i, C.allowed i t → Q (f i t) t) :
    (observe f).Obeys C Q s :=
  obeys_atomically fun t ht hst i hi => ⟨ht, hrefl t, hf t ht hst i hi⟩

theorem Obeys.bind {Q' : Except ε β → σ → Prop} {p : Thread ι σ ε α}
    {f : α → Thread ι σ ε β} {s : σ} (hp : p.Obeys C Q s)
    (hok : ∀ a t, Q (.ok a) t → (f a).Obeys C Q' t)
    (herror : ∀ e t, Q (.error e) t → Q' (.error e) t) :
    (p >>= f).Obeys C Q' s := by
  induction p generalizing s with
  | done a => exact hok a s hp
  | fail e => exact herror e s hp
  | atomic act next ih =>
    intro t ht hst i hi
    obtain ⟨hinv, hguar, hnext⟩ := hp t ht hst i hi
    exact ⟨hinv, hguar, ih i t hnext⟩

def finished : Thread ι σ ε α → Bool
  | done _ => true
  | fail _ => true
  | atomic _ _ => false

/-- What others do within the rely does not matter to a thread that still has a
step to take. -/
theorem Obeys.rely {p : Thread ι σ ε α} {s t : σ} (hp : p.Obeys C Q s)
    (hunfinished : p.finished = false)
    (htrans : ∀ {a b c}, C.rely a b → C.rely b c → C.rely a c) (hst : C.rely s t) :
    p.Obeys C Q t := by
  cases p with
  | done a => cases hunfinished
  | fail e => cases hunfinished
  | atomic act next =>
    intro u hu htu i hi
    exact hp u hu (htrans hst htu) i hi

/-! ## Contracts that say nothing of failures -/

/-- A value is returned with `Q`; a failure may happen anywhere. -/
abbrev ObeysOk (C : Contract ι σ) (Q : α → σ → Prop) (p : Thread ι σ ε α) (s : σ) : Prop :=
  p.Obeys C (fun r t => ∀ a, r = .ok a → Q a t) s

section

variable {Q : α → σ → Prop} {s : σ}

theorem obeysOk_pure {a : α} (ha : Q a s) : (pure a : Thread ι σ ε α).ObeysOk C Q s := by
  intro b hb
  cases hb
  exact ha

theorem obeysOk_fail (e : ε) : (fail e : Thread ι σ ε α).ObeysOk C Q s :=
  fun _ hb => nomatch hb

theorem obeysOk_check {r : Except ε β} {k : β → Thread ι σ ε α}
    (hk : ∀ b, r = .ok b → (k b).ObeysOk C Q s) :
    ((ofExcept r : Thread ι σ ε β) >>= k).ObeysOk C Q s :=
  obeys_ofExcept_bind hk fun _ _ _ hb => nomatch hb

theorem obeysOk_atomically {f : ι → σ → Except ε α × σ}
    (hf : ∀ t, C.invariant t → C.rely s t → ∀ i, C.allowed i t →
      C.invariant (f i t).2 ∧ C.guarantee t (f i t).2 ∧
        ∀ a, (f i t).1 = .ok a → Q a (f i t).2) :
    (atomically f).ObeysOk C Q s := obeys_atomically hf

theorem obeysOk_observe {f : ι → σ → Except ε α} (hrefl : ∀ t, C.guarantee t t)
    (hf : ∀ t, C.invariant t → C.rely s t → ∀ i, C.allowed i t →
      ∀ a, f i t = .ok a → Q a t) :
    (observe f).ObeysOk C Q s := obeys_observe hrefl hf

theorem ObeysOk.bind {Q' : β → σ → Prop} {p : Thread ι σ ε α} {f : α → Thread ι σ ε β}
    (hp : p.ObeysOk C Q s) (hf : ∀ a t, Q a t → (f a).ObeysOk C Q' t) :
    (p >>= f).ObeysOk C Q' s :=
  Obeys.bind hp (fun a t ha => hf a t (ha a rfl)) fun _ _ _ _ hb => nomatch hb

end

/-! ## What a thread can do at all -/

/-- Every step of the thread is one of `G`, whatever the others do between. -/
def Acts (G : σ → σ → Prop) : Thread ι σ ε α → Prop
  | done _ => True
  | fail _ => True
  | atomic act next => ∀ i s, G s (act i s) ∧ Acts G (next i s)

section

variable {G : σ → σ → Prop}

theorem acts_pure (a : α) : (pure a : Thread ι σ ε α).Acts G := trivial

theorem acts_fail (e : ε) : (fail e : Thread ι σ ε α).Acts G := trivial

theorem acts_ofExcept (r : Except ε α) : (ofExcept r : Thread ι σ ε α).Acts G := by
  cases r with
  | ok a => trivial
  | error e => trivial

theorem acts_atomically {f : ι → σ → Except ε α × σ} (hf : ∀ i s, G s (f i s).2) :
    (atomically f).Acts G := fun i s => ⟨hf i s, acts_ofExcept _⟩

theorem acts_observe {f : ι → σ → Except ε α} (hrefl : ∀ s, G s s) :
    (observe f).Acts G := acts_atomically fun _ s => hrefl s

theorem Acts.bind {p : Thread ι σ ε α} {f : α → Thread ι σ ε β} (hp : p.Acts G)
    (hf : ∀ a, (f a).Acts G) : (p >>= f).Acts G := by
  induction p with
  | done a => exact hf a
  | fail e => trivial
  | atomic act next ih =>
    intro i s
    exact ⟨(hp i s).1, ih i s (hp i s).2⟩

theorem Acts.map {p : Thread ι σ ε α} {f : α → β} (hp : p.Acts G) : (f <$> p).Acts G :=
  hp.bind fun _ => trivial

theorem Acts.embed {κ τ δ : Type} {input : ι → κ} {get : σ → τ} {set : τ → σ → σ}
    {err : δ → ε} {H : τ → τ → Prop} {p : Thread κ τ δ α} (hp : p.Acts H)
    (hset : ∀ s t, H (get s) t → G s (set t s)) :
    (p.embed input get set err).Acts G := by
  induction p with
  | done a => trivial
  | fail e => trivial
  | atomic act next ih =>
    intro i s
    exact ⟨hset s _ (hp (input i) (get s)).1, ih _ _ (hp (input i) (get s)).2⟩

end

/-- A thread that runs alone goes from state to state by its own steps. -/
theorem Acts.alone {G : σ → σ → Prop} {p : Thread ι σ ε α} (hp : p.Acts G)
    (hrefl : ∀ s, G s s) (htrans : ∀ {s t u}, G s t → G t u → G s u) (input : Nat → ι) (n : Nat)
    (s : σ) : G s (p.alone input n s).2 := by
  induction p generalizing n s with
  | done a => exact hrefl s
  | fail e => exact hrefl s
  | atomic act next ih =>
    obtain ⟨hstep, hrest⟩ := hp (input n) s
    exact htrans hstep (ih (input n) s hrest (n + 1) (act (input n) s))

/-! ## One step -/

/-- The next step of a thread: what it makes of the state, and what is left of it. -/
def advance (input : ι) (s : σ) : Thread ι σ ε α → σ × Thread ι σ ε α
  | atomic act next => (act input s, next input s)
  | done a => (s, done a)
  | fail e => (s, fail e)

theorem advance_atomically_bind (f : ι → σ → Except ε α × σ) (k : α → Thread ι σ ε β)
    (input : ι) (s : σ) :
    (atomically f >>= k).advance input s = ((f input s).2, ofExcept (f input s).1 >>= k) :=
  rfl

theorem advance_observe_bind (f : ι → σ → Except ε α) (k : α → Thread ι σ ε β) (input : ι)
    (s : σ) : (observe f >>= k).advance input s = (s, ofExcept (f input s) >>= k) := rfl

end Thread

/-! ## Pools -/

/-- The shared state and the calls that have arrived, each with what is left of
it. -/
structure Pool (κ ι σ ε α : Type) where
  state : σ
  calls : List (κ × Thread ι σ ε α)

inductive Move (κ ι : Type) where
  | arrive (call : κ)
  | advance (i : Nat) (input : ι)

namespace Pool

variable {κ ι σ ε α : Type} (program : κ → Thread ι σ ε α)

/-- A pool before the first arrival. -/
def start (s : σ) : Pool κ ι σ ε α := ⟨s, []⟩

def step (pool : Pool κ ι σ ε α) : Move κ ι → Pool κ ι σ ε α
  | .arrive call => { pool with calls := pool.calls ++ [(call, program call)] }
  | .advance i input =>
    match pool.calls[i]? with
    | some (call, .atomic act next) =>
      { state := act input pool.state
        calls := pool.calls.set i (call, next input pool.state) }
    | _ => pool

/-- The call that takes the step of a move. -/
def caller (pool : Pool κ ι σ ε α) : Move κ ι → Option κ
  | .arrive _ => none
  | .advance i _ => (pool.calls[i]?).map Prod.fst

/-- The pool after the first `n` moves of a run. -/
abbrev after (s : σ) (moves : List (Move κ ι)) (n : Nat) : Pool κ ι σ ε α :=
  stateAt (step program) (start s) moves n

theorem after_succ {program : κ → Thread ι σ ε α} {s : σ} {moves : List (Move κ ι)}
    {n : Nat} (hn : n < moves.length) :
    after program s moves (n + 1) = (after program s moves n).step program moves[n] :=
  stateAt_succ hn

/-- A call that is still in progress. -/
def InProgress (pool : Pool κ ι σ ε α) (call : κ) : Prop :=
  ∃ c ∈ pool.calls, c.1 = call ∧ c.2.finished = false

/-- A call arrives only when it is `Apart` from every call in progress, and a step
finds an allowed input. -/
def Admits (Apart : κ → κ → Prop) (P : ι → σ → Prop) (pool : Pool κ ι σ ε α) :
    Move κ ι → Prop
  | .arrive call => ∀ other, pool.InProgress other → Apart other call
  | .advance _ input => P input pool.state

/-- Every move of the run is admitted. -/
def Admitted (Apart : κ → κ → Prop) (P : ι → σ → Prop) (s : σ) (moves : List (Move κ ι)) : Prop :=
  ∀ n, (hn : n < moves.length) → (after program s moves n).Admits Apart P moves[n]

/-- The calls in progress keep their contracts, and are pairwise apart. -/
structure Bound (Apart : κ → κ → Prop) (P : ι → σ → Prop) (I : σ → Prop)
    (R G : κ → σ → σ → Prop) (Q : κ → Except ε α → σ → Prop) (pool : Pool κ ι σ ε α) : Prop where
  state : I pool.state
  calls : ∀ c ∈ pool.calls, c.2.finished = false →
    c.2.Obeys ⟨P, I, R c.1, G c.1⟩ (Q c.1) pool.state
  apart : ∀ (i j : Nat) c d, pool.calls[i]? = some c → pool.calls[j]? = some d → i < j →
    c.2.finished = false → d.2.finished = false → Apart c.1 d.1

/-- A rely may be spread over any number of steps, and covers the guarantees of the
calls that are apart. -/
structure Rules (Apart : κ → κ → Prop) (R G : κ → σ → σ → Prop) : Prop where
  refl : ∀ call s, R call s s
  trans : ∀ {call a b c}, R call a b → R call b c → R call a c
  guarantee : ∀ {call other s t}, Apart call other → G call s t → R other s t
  symm : ∀ {call other}, Apart call other → Apart other call

variable {program} {Apart : κ → κ → Prop} {P : ι → σ → Prop} {I : σ → Prop}
  {R G : κ → σ → σ → Prop} {Q : κ → Except ε α → σ → Prop}

theorem bound_start {s : σ} (hs : I s) : (start s : Pool κ ι σ ε α).Bound Apart P I R G Q where
  state := hs
  calls c hc := absurd hc (by simp [start])
  apart i j c d hc _ _ _ _ := absurd hc (by simp [start])

/-- What an admitted move does to a pool: a call arrives, nothing happens, or a
call takes a step within its guarantee. -/
theorem Bound.step_cases {pool : Pool κ ι σ ε α} (hpool : pool.Bound Apart P I R G Q)
    (hrules : Rules Apart R G) {move : Move κ ι} (hmove : pool.Admits Apart P move) :
    (∃ call, move = .arrive call) ∨
      pool.step program move = pool ∨
      ∃ i call p q t, pool.calls[i]? = some (call, p) ∧ p.finished = false ∧
        pool.caller move = some call ∧
        pool.step program move = ⟨t, pool.calls.set i (call, q)⟩ ∧
        I t ∧ G call pool.state t ∧ q.Obeys ⟨P, I, R call, G call⟩ (Q call) t := by
  cases move with
  | arrive call => exact Or.inl ⟨call, rfl⟩
  | advance i input =>
    right
    simp only [Pool.step, caller]
    cases hcall : pool.calls[i]? with
    | none => exact Or.inl rfl
    | some c =>
      have hobeys := hpool.calls c (List.mem_of_getElem? hcall)
      obtain ⟨call, p⟩ := c
      cases p with
      | done a => exact Or.inl rfl
      | fail e => exact Or.inl rfl
      | atomic act next =>
        obtain ⟨hinv, hguar, hnext⟩ :=
          hobeys rfl pool.state hpool.state (hrules.refl _ _) input hmove
        exact Or.inr ⟨i, call, _, next input pool.state, act input pool.state, hcall,
          rfl, rfl, rfl, hinv, hguar, hnext⟩

theorem Bound.step {pool : Pool κ ι σ ε α} (hpool : pool.Bound Apart P I R G Q)
    (hrules : Rules Apart R G) {move : Move κ ι} (hmove : pool.Admits Apart P move)
    (harrive : ∀ call, move = .arrive call → I pool.state →
      (program call).Obeys ⟨P, I, R call, G call⟩ (Q call) pool.state) :
    (pool.step program move).Bound Apart P I R G Q := by
  rcases hpool.step_cases hrules hmove with
    ⟨call, rfl⟩ | heq | ⟨i, call, p, q, t, hcall, hunfinished, -, heq, ht, hguar, hq⟩
  · refine ⟨hpool.state, fun c hc hc' => ?_, ?_⟩
    · rcases List.mem_append.mp hc with hc | hc
      · exact hpool.calls c hc hc'
      · cases List.mem_singleton.mp hc
        exact harrive call rfl hpool.state
    · intro i j c d hc hd hlt hc' hd'
      have hj : j < (pool.calls ++ [(call, program call)]).length :=
        (List.getElem?_eq_some_iff.mp hd).1
      rw [List.length_append, List.length_singleton] at hj
      have hc : pool.calls[i]? = some c := by
        rw [← hc]
        exact (List.getElem?_append_left (by omega)).symm
      rcases Nat.lt_or_eq_of_le (Nat.le_of_lt_succ hj) with hlast | hlast
      · have hd : pool.calls[j]? = some d := by
          rw [← hd]
          exact (List.getElem?_append_left hlast).symm
        exact hpool.apart i j c d hc hd hlt hc' hd'
      · have hd : d = (call, program call) := by
          have hd' : (pool.calls ++ [(call, program call)])[j]? = some d := hd
          rw [hlast, List.getElem?_concat_length] at hd'
          exact (Option.some.inj hd').symm
        rw [hd]
        exact hmove c.1 ⟨c, List.mem_of_getElem? hc, rfl, hc'⟩
  · rw [heq]
    exact hpool
  · rw [heq]
    have hi : i < pool.calls.length := (List.getElem?_eq_some_iff.mp hcall).1
    -- a call other than the one that steps is as it was
    have hother : ∀ (j : Nat) c, (pool.calls.set i (call, q))[j]? = some c → j ≠ i →
        pool.calls[j]? = some c := by
      intro j c hc hne
      rwa [List.getElem?_set_ne hne.symm] at hc
    have hself : ∀ c, (pool.calls.set i (call, q))[i]? = some c → c = (call, q) := by
      intro c hc
      rw [List.getElem?_set_self hi] at hc
      exact (Option.some.inj hc).symm
    have hapart : ∀ (j : Nat) c, pool.calls[j]? = some c → j ≠ i → c.2.finished = false →
        Apart call c.1 := by
      intro j c hc hne hc'
      rcases Nat.lt_or_gt_of_ne hne with hlt | hlt
      · exact hrules.symm (hpool.apart j i c _ hc hcall hlt hc' hunfinished)
      · exact hpool.apart i j _ c hcall hc hlt hunfinished hc'
    refine ⟨ht, fun c hc hc' => ?_, ?_⟩
    · obtain ⟨j, hj⟩ := List.mem_iff_getElem?.mp hc
      by_cases hne : j = i
      · subst hne
        rw [hself c hj]
        exact hq
      · have hold := hother j c hj hne
        exact (hpool.calls c (List.mem_of_getElem? hold) hc').rely hc' hrules.trans
          (hrules.guarantee (hapart j c hold hne hc') hguar)
    · intro j k c d hc hd hlt hc' hd'
      by_cases hj : j = i
      · subst hj
        have hne : k ≠ j := by omega
        rw [hself c hc]
        exact hapart k d (hother k d hd hne) hne hd'
      · by_cases hk : k = i
        · subst hk
          have hold := hother j c hc hj
          rw [hself d hd]
          exact hrules.symm (hapart j c hold hj hc')
        · exact hpool.apart j k c d (hother j c hc hj) (hother k d hd hk) hlt hc' hd'

/-- Every call keeps its contract in every admitted run, when programs obey theirs
from any state. -/
theorem after_bound {s : σ} (hs : I s) (hrules : Rules Apart R G)
    (hprog : ∀ call s, I s → (program call).Obeys ⟨P, I, R call, G call⟩ (Q call) s)
    {moves : List (Move κ ι)} (hadmitted : Admitted program Apart P s moves) (n : Nat) :
    (after program s moves n).Bound Apart P I R G Q :=
  stateAt_induction (I := fun pool : Pool κ ι σ ε α => pool.Bound Apart P I R G Q)
    (bound_start hs)
    (fun i hi hpool => hpool.step hrules (hadmitted i hi) fun call _ => hprog call _) n

/-- In a run every change of the state is made by the step of a call, and is one
that `P` allows for the call. -/
def EveryStep (program : κ → Thread ι σ ε α) (s : σ) (moves : List (Move κ ι))
    (P : κ → σ → σ → Prop) : Prop :=
  ∀ n, (hn : n < moves.length) →
    (∀ call, (after program s moves n).caller moves[n] = some call →
      P call (after program s moves n).state (after program s moves (n + 1)).state) ∧
    ((after program s moves n).caller moves[n] = none →
      (after program s moves (n + 1)).state = (after program s moves n).state)

/-- The guarantees hold of every step of every admitted run. -/
theorem everyStep {s : σ} (hs : I s) (hrules : Rules Apart R G) (hsame : ∀ call s, G call s s)
    (hprog : ∀ call s, I s → (program call).Obeys ⟨P, I, R call, G call⟩ (Q call) s)
    {moves : List (Move κ ι)} (hadmitted : Admitted program Apart P s moves) :
    EveryStep program s moves G := by
  intro n hn
  have hbound := after_bound hs hrules hprog hadmitted n
  rw [after_succ hn]
  rcases hbound.step_cases hrules (hadmitted n hn) with
    ⟨call, hmove⟩ | heq | ⟨i, call, p, q, t, -, -, hcaller, heq, -, hguar, -⟩
  · rw [hmove]
    exact ⟨fun call _ => hsame call _, fun _ => rfl⟩
  · rw [heq]
    exact ⟨fun call _ => hsame call _, fun _ => rfl⟩
  · rw [heq]
    refine ⟨fun call' hcall' => ?_, fun hnone => ?_⟩
    · cases hcaller.symm.trans hcall'
      exact hguar
    · cases hcaller.symm.trans hnone

/-- What the calls can do at all is what the steps of any run do. -/
theorem everyStep_of_acts (hsame : ∀ call s, G call s s)
    (hprog : ∀ call, (program call).Acts (G call)) (s : σ) (moves : List (Move κ ι)) :
    EveryStep program s moves G := by
  have hacts : ∀ n, ∀ c ∈ (after program s moves n).calls, c.2.Acts (G c.1) := by
    apply stateAt_induction (I := fun pool : Pool κ ι σ ε α =>
      ∀ c ∈ pool.calls, c.2.Acts (G c.1))
    · intro c hc
      cases hc
    · intro i hi hpool c hc
      cases hmove : moves[i] with
      | arrive call =>
        rw [hmove] at hc
        rcases List.mem_append.mp hc with hc | hc
        · exact hpool c hc
        · cases List.mem_singleton.mp hc
          exact hprog call
      | advance j input =>
        rw [hmove] at hc
        simp only [Pool.step] at hc
        split at hc
        · rename_i call act next hcall
          rcases List.mem_or_eq_of_mem_set hc with hc | rfl
          · exact hpool c hc
          · have hold : (Thread.atomic act next).Acts (G call) :=
              hpool _ (List.mem_of_getElem? hcall)
            exact (hold input _).2
        · exact hpool c hc
  intro n hn
  have hpool := hacts n
  rw [after_succ hn]
  cases moves[n] with
  | arrive call => exact ⟨fun call _ => hsame call _, fun _ => rfl⟩
  | advance i input =>
    simp only [Pool.step, caller]
    cases hcall : (after program s moves n).calls[i]? with
    | none => exact ⟨fun call _ => hsame call _, fun _ => rfl⟩
    | some c =>
      obtain ⟨call, p⟩ := c
      cases p with
      | done a => exact ⟨fun call _ => hsame call _, fun _ => rfl⟩
      | fail e => exact ⟨fun call _ => hsame call _, fun _ => rfl⟩
      | atomic act next =>
        have hold : (Thread.atomic act next).Acts (G call) :=
          hpool _ (List.mem_of_getElem? hcall)
        refine ⟨fun call' hcall' => ?_, fun hnone => nomatch hnone⟩
        cases hcall'
        exact (hold input _).1

/-! ## One call of a run -/

theorem step_advance (program : κ → Thread ι σ ε α) {pool : Pool κ ι σ ε α} {i : Nat}
    {call : κ} {p : Thread ι σ ε α} (hi : pool.calls[i]? = some (call, p)) (input : ι) :
    (pool.step program (.advance i input)).state = (p.advance input pool.state).1 ∧
      (pool.step program (.advance i input)).calls[i]? =
        some (call, (p.advance input pool.state).2) := by
  have hlt : i < pool.calls.length := (List.getElem?_eq_some_iff.mp hi).1
  simp only [Pool.step, hi]
  cases p with
  | done a => exact ⟨rfl, hi⟩
  | fail e => exact ⟨rfl, hi⟩
  | atomic act next => exact ⟨rfl, List.getElem?_set_self hlt⟩

/-- A move of others leaves a call as it is. -/
theorem getElem?_step {pool : Pool κ ι σ ε α} {i : Nat} {c : κ × Thread ι σ ε α}
    (hi : pool.calls[i]? = some c) {move : Move κ ι} (hmove : ∀ input, move ≠ .advance i input) :
    (pool.step program move).calls[i]? = some c := by
  have hlt : i < pool.calls.length := (List.getElem?_eq_some_iff.mp hi).1
  cases move with
  | arrive call => exact (List.getElem?_append_left hlt).trans hi
  | advance j input =>
    have hne : j ≠ i := by
      rintro rfl
      exact hmove input rfl
    simp only [Pool.step]
    split
    · exact (List.getElem?_set_ne hne).trans hi
    · exact hi

theorem length_calls_step (pool : Pool κ ι σ ε α) (move : Move κ ι) :
    pool.calls.length ≤ (pool.step program move).calls.length := by
  cases move with
  | arrive call =>
    show pool.calls.length ≤ (pool.calls ++ [(call, program call)]).length
    rw [List.length_append]
    omega
  | advance i input =>
    simp only [Pool.step]
    split
    · exact Nat.le_of_eq List.length_set.symm
    · exact Nat.le_refl _

/-- Calls are only added. -/
theorem length_calls_mono {s : σ} {moves : List (Move κ ι)} {k n : Nat} (hkn : k ≤ n) :
    (after program s moves k).calls.length ≤ (after program s moves n).calls.length := by
  refine stateAt_induction_from (P := fun pool : Pool κ ι σ ε α =>
    (after program s moves k).calls.length ≤ pool.calls.length) (Nat.le_refl _) ?_ hkn
  intro n _ hlt hn
  exact Nat.le_trans hn (length_calls_step _ _)

/-- What the steps of a run keep holds from some point on. -/
theorem EveryStep.kept {s : σ} {moves : List (Move κ ι)} {P : κ → σ → σ → Prop} {I : σ → Prop}
    (hsteps : EveryStep program s moves P) (hI : ∀ {call s t}, P call s t → I s → I t)
    {k n : Nat} (hkn : k ≤ n) (hk : I (after program s moves k).state) :
    I (after program s moves n).state := by
  refine stateAt_induction_from (P := fun pool : Pool κ ι σ ε α => I pool.state) hk ?_ hkn
  intro n _ hlt hn
  have hstep := hsteps n hlt
  rw [after_succ hlt] at hstep
  cases hcaller : (after program s moves n).caller moves[n] with
  | none =>
    rw [hstep.2 hcaller]
    exact hn
  | some call => exact hI (hstep.1 call hcaller) hn

/-- A property of the state and of what is left of one call holds from some point of
a run on, when the steps of the others and its own keep it. -/
theorem tracked {s : σ} {moves : List (Move κ ι)} {i : Nat} {call : κ}
    {H : σ → σ → Prop} {J : σ → Thread ι σ ε α → Prop}
    (hsteps : EveryStep program s moves fun _ => H) (hothers : ∀ {s t p}, H s t → J s p → J t p)
    (hown : ∀ (n : Nat) input p, moves[n]? = some (.advance i input) →
      (after program s moves n).calls[i]? = some (call, p) → J (after program s moves n).state p →
      H (after program s moves n).state (p.advance input (after program s moves n).state).1 →
      J (p.advance input (after program s moves n).state).1
        (p.advance input (after program s moves n).state).2)
    {k : Nat} {p : Thread ι σ ε α} (hk : (after program s moves k).calls[i]? = some (call, p))
    (hJ : J (after program s moves k).state p) (n : Nat) (hn : k ≤ n) :
    ∃ q, (after program s moves n).calls[i]? = some (call, q) ∧
      J (after program s moves n).state q := by
  refine stateAt_induction_from (P := fun pool : Pool κ ι σ ε α =>
    ∃ q, pool.calls[i]? = some (call, q) ∧ J pool.state q) ⟨p, hk, hJ⟩ ?_ hn
  rintro n - hlt ⟨q, hq, hJq⟩
  have hstep := hsteps n hlt
  have hmove? : moves[n]? = some moves[n] := List.getElem?_eq_getElem hlt
  rw [after_succ hlt] at hstep
  by_cases hself : ∃ input, moves[n] = .advance i input
  · obtain ⟨input, hmove⟩ := hself
    rw [hmove] at hmove? ⊢
    obtain ⟨hstate, hcalls⟩ := step_advance program hq input
    have hcaller : (after program s moves n).caller (.advance i input) = some call := by
      rw [caller, hq]
      rfl
    rw [hmove, hstate] at hstep
    refine ⟨_, hcalls, ?_⟩
    rw [hstate]
    exact hown n input q hmove? hq hJq (hstep.1 call hcaller)
  · have hother : ∀ input, moves[n] ≠ .advance i input := fun input h => hself ⟨input, h⟩
    refine ⟨q, getElem?_step hq hother, ?_⟩
    cases hcaller : (after program s moves n).caller moves[n] with
    | none =>
      rw [hstep.2 hcaller]
      exact hJq
    | some other => exact hothers (hstep.1 other hcaller) hJq

end Pool

end DevRelay.Lib
