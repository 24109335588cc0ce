import Mathlib.Tactic.Common

/-!
# Statement programs

Code that touches a store does so one statement at a time, and every statement
can be the last one: it may raise an error, or the process may die in front of
it.  `Prog` keeps that structure.  A program is executed under a fault
schedule, and is read in two ways: with its effects kept up to the statement
that stopped it (files, references), or as the body of a transaction whose
effects are dropped unless the body reaches its commit.
-/

namespace DevRelay.Lib

/-- A program of statements over a store `σ`.  A statement reads the store,
writes it, and continues with what it has read. -/
inductive Prog (σ ε α : Type) where
  | done (a : α)
  | fail (e : ε)
  | stmt (write : σ → σ) (next : σ → Prog σ ε α)

/-- `fault n = some e`: the `n`-th statement is not run, and raises `e`. -/
abbrev Fault (ε : Type) := Nat → Option ε

/-- The schedule under which every statement runs. -/
def noFault {ε : Type} : Fault ε := fun _ => none

namespace Prog

variable {σ ε α β : Type}

def bind : Prog σ ε α → (α → Prog σ ε β) → Prog σ ε β
  | done a, f => f a
  | fail e, _ => fail e
  | stmt write next, f => stmt write fun s => (next s).bind f

instance : Monad (Prog σ ε) where
  pure := done
  bind := bind

theorem bind_assoc {γ : Type} (p : Prog σ ε α) (f : α → Prog σ ε β) (g : β → Prog σ ε γ) :
    p >>= f >>= g = p >>= fun a => f a >>= g := by
  induction p with
  | done a => rfl
  | fail e => rfl
  | stmt write next ih => exact congrArg (stmt write) (funext ih)

/-- Read the store. -/
def query (f : σ → α) : Prog σ ε α := stmt id fun s => done (f s)

/-- Write the store. -/
def write (f : σ → σ) : Prog σ ε Unit := stmt f fun _ => done ()

/-- Write the store and report a value read before the write. -/
def update (f : σ → σ) (g : σ → α) : Prog σ ε α := stmt f fun s => done (g s)

/-- A write that the store can refuse. -/
def attempt (f : σ → Option σ) (e : ε) : Prog σ ε Unit :=
  stmt (fun s => (f s).getD s) fun s =>
    match f s with
    | some _ => done ()
    | none => fail e

/-- Go on only if `c` holds; no statement is run. -/
def ensure (c : Prop) [Decidable c] (e : ε) : Prog σ ε Unit :=
  if c then done () else fail e

/-- Unwrap an optional value, or fail. -/
def orFail (o : Option α) (e : ε) : Prog σ ε α :=
  match o with
  | some a => done a
  | none => fail e

/-- Unwrap the value of a fallible pure function. -/
def ofExcept (r : Except ε α) : Prog σ ε α :=
  match r with
  | .ok a => done a
  | .error e => fail e

/-- One operation of a store underneath, which succeeds as a whole or not at all. -/
def call (f : σ → Except ε (α × σ)) : Prog σ ε α :=
  stmt (fun s => match f s with
      | .ok (_, t) => t
      | .error _ => s) fun s =>
    match f s with
    | .ok (a, _) => done a
    | .error e => fail e

/-- A program of statements over a part of a store. -/
def within {τ : Type} (get : σ → τ) (set : τ → σ → σ) : Prog τ ε α → Prog σ ε α
  | done a => done a
  | fail e => fail e
  | stmt write next =>
    stmt (fun s => set (write (get s)) s) fun s => within get set (next (get s))

/-- Execute under a fault schedule, from statement number `n` on.  The effects
of the statements that ran are kept. -/
def exec (fault : Fault ε) : Nat → Prog σ ε α → σ → Except ε α × σ
  | _, done a, s => (.ok a, s)
  | _, fail e, s => (.error e, s)
  | n, stmt write next, s =>
    match fault n with
    | some e => (.error e, s)
    | none => exec fault (n + 1) (next s) (write s)

theorem exec_stmt {fault : Fault ε} {n : Nat} (h : fault n = none) (write : σ → σ)
    (next : σ → Prog σ ε α) (s : σ) :
    (stmt write next).exec fault n s = (next s).exec fault (n + 1) (write s) := by
  simp [exec, h]

theorem exec_stmt_stopped {fault : Fault ε} {n : Nat} {e : ε} (h : fault n = some e)
    (write : σ → σ) (next : σ → Prog σ ε α) (s : σ) :
    (stmt write next).exec fault n s = (.error e, s) := by
  simp [exec, h]

theorem exec_query_bind_stopped {fault : Fault ε} {n : Nat} {e : ε} (h : fault n = some e)
    (f : σ → α) (k : α → Prog σ ε β) (s : σ) :
    (query f >>= k).exec fault n s = (.error e, s) := exec_stmt_stopped h _ _ s

theorem exec_write_bind_stopped {fault : Fault ε} {n : Nat} {e : ε} (h : fault n = some e)
    (f : σ → σ) (k : Unit → Prog σ ε β) (s : σ) :
    (write f >>= k).exec fault n s = (.error e, s) := exec_stmt_stopped h _ _ s

theorem exec_attempt_bind_stopped {fault : Fault ε} {n : Nat} {e' : ε} (h : fault n = some e')
    (f : σ → Option σ) (e : ε) (k : Unit → Prog σ ε β) (s : σ) :
    (attempt f e >>= k).exec fault n s = (.error e', s) := exec_stmt_stopped h _ _ s

theorem exec_query_bind {fault : Fault ε} {n : Nat} (h : fault n = none) (f : σ → α)
    (k : α → Prog σ ε β) (s : σ) :
    (query f >>= k).exec fault n s = (k (f s)).exec fault (n + 1) s := exec_stmt h _ _ s

theorem exec_write_bind {fault : Fault ε} {n : Nat} (h : fault n = none) (f : σ → σ)
    (k : Unit → Prog σ ε β) (s : σ) :
    (write f >>= k).exec fault n s = (k ()).exec fault (n + 1) (f s) := exec_stmt h _ _ s

theorem exec_update_bind {fault : Fault ε} {n : Nat} (h : fault n = none) (f : σ → σ)
    (g : σ → α) (k : α → Prog σ ε β) (s : σ) :
    (update f g >>= k).exec fault n s = (k (g s)).exec fault (n + 1) (f s) := exec_stmt h _ _ s

theorem exec_attempt_bind {fault : Fault ε} {n : Nat} (h : fault n = none) {f : σ → Option σ}
    {s t : σ} (hf : f s = some t) (e : ε) (k : Unit → Prog σ ε β) :
    (attempt f e >>= k).exec fault n s = (k ()).exec fault (n + 1) t := by
  have hstmt : (attempt f e >>= k).exec fault n s =
      Prog.exec fault (n + 1) ((match f s with
        | some _ => done ()
        | none => fail e : Prog σ ε Unit) >>= k) ((f s).getD s) := exec_stmt h _ _ s
  rw [hstmt, hf]
  rfl

theorem exec_attempt_bind_refused {fault : Fault ε} {n : Nat} (h : fault n = none)
    {f : σ → Option σ} {s : σ} (hf : f s = none) (e : ε) (k : Unit → Prog σ ε β) :
    (attempt f e >>= k).exec fault n s = (.error e, s) := by
  have hstmt : (attempt f e >>= k).exec fault n s =
      Prog.exec fault (n + 1) ((match f s with
        | some _ => done ()
        | none => fail e : Prog σ ε Unit) >>= k) ((f s).getD s) := exec_stmt h _ _ s
  rw [hstmt, hf]
  rfl

theorem ensure_bind_of_true {c : Prop} [Decidable c] (h : c) (e : ε)
    (k : Unit → Prog σ ε β) : (ensure c e >>= k : Prog σ ε β) = k () := by
  rw [ensure, if_pos h]
  rfl

theorem ofExcept_ok_bind (a : α) (k : α → Prog σ ε β) :
    (ofExcept (.ok a) >>= k : Prog σ ε β) = k a := rfl

/-- Execute with every statement running. -/
def run (p : Prog σ ε α) (s : σ) : Except ε α × σ := p.exec noFault 0 s

theorem exec_noFault (n m : Nat) (p : Prog σ ε α) (s : σ) :
    p.exec noFault n s = p.exec noFault m s := by
  induction p generalizing n m s with
  | done a => rfl
  | fail e => rfl
  | stmt write next ih => exact ih s (n + 1) (m + 1) (write s)

@[simp] theorem run_stmt (write : σ → σ) (next : σ → Prog σ ε α) (s : σ) :
    (stmt write next).run s = (next s).run (write s) :=
  exec_noFault 1 0 (next s) (write s)

@[simp] theorem run_pure (a : α) (s : σ) : (pure a : Prog σ ε α).run s = (.ok a, s) := rfl

@[simp] theorem run_fail (e : ε) (s : σ) : (fail e : Prog σ ε α).run s = (.error e, s) := rfl

theorem run_bind (p : Prog σ ε α) (f : α → Prog σ ε β) (s : σ) :
    (p >>= f).run s =
      match p.run s with
      | (.ok a, t) => (f a).run t
      | (.error e, t) => (.error e, t) := by
  induction p generalizing s with
  | done a => rfl
  | fail e => rfl
  | stmt write next ih =>
    change (stmt write fun s => (next s).bind f).run s = _
    rw [run_stmt, run_stmt]
    exact ih s (write s)

/-- Under a fault schedule a program either stops with an error, or does what
it does when every statement runs. -/
theorem exec_error_or_run (fault : Fault ε) (n : Nat) (p : Prog σ ε α) (s : σ) :
    (∃ e, (p.exec fault n s).1 = .error e) ∨ p.exec fault n s = p.run s := by
  induction p generalizing n s with
  | done a => exact Or.inr rfl
  | fail e => exact Or.inl ⟨e, rfl⟩
  | stmt write next ih =>
    rw [run_stmt]
    cases hfault : fault n with
    | some e => exact Or.inl ⟨e, by simp [exec, hfault]⟩
    | none => simpa [exec, hfault] using ih s (n + 1) (write s)

@[simp] theorem run_query_bind (f : σ → α) (k : α → Prog σ ε β) (s : σ) :
    (query f >>= k).run s = (k (f s)).run s := run_stmt _ _ s

@[simp] theorem run_write_bind (f : σ → σ) (k : Unit → Prog σ ε β) (s : σ) :
    (write f >>= k).run s = (k ()).run (f s) := run_stmt _ _ s

@[simp] theorem run_update_bind (f : σ → σ) (g : σ → α) (k : α → Prog σ ε β) (s : σ) :
    (update f g >>= k).run s = (k (g s)).run (f s) := run_stmt _ _ s

theorem run_attempt_bind {f : σ → Option σ} {s t : σ} (hf : f s = some t) (e : ε)
    (k : Unit → Prog σ ε β) : (attempt f e >>= k).run s = (k ()).run t :=
  (exec_attempt_bind rfl hf e k).trans (exec_noFault 1 0 (k ()) t)

theorem run_ensure_bind (c : Prop) [Decidable c] (e : ε) (k : Unit → Prog σ ε β) (s : σ) :
    (ensure c e >>= k).run s = if c then (k ()).run s else (.error e, s) := by
  unfold ensure
  split
  · rfl
  · rfl

theorem within_bind {τ : Type} (get : σ → τ) (set : τ → σ → σ) (p : Prog τ ε α)
    (f : α → Prog τ ε β) :
    (p >>= f).within get set = p.within get set >>= fun a => (f a).within get set := by
  induction p with
  | done a => rfl
  | fail e => rfl
  | stmt write next ih => exact congrArg (stmt _) (funext fun s => ih (get s))

/-- Within a larger store a program does what it does to its part. -/
theorem exec_within {τ : Type} {get : σ → τ} {set : τ → σ → σ}
    (hget : ∀ t s, get (set t s) = t) (hself : ∀ s, set (get s) s = s)
    (hset : ∀ t u s, set t (set u s) = set t s) (fault : Fault ε) (n : Nat) (p : Prog τ ε α)
    (s : σ) :
    (p.within get set).exec fault n s =
      ((p.exec fault n (get s)).1, set (p.exec fault n (get s)).2 s) := by
  induction p generalizing n s with
  | done a =>
    simp only [within, exec]
    rw [hself]
  | fail e =>
    simp only [within, exec]
    rw [hself]
  | stmt write next ih =>
    cases hfault : fault n with
    | some e =>
      simp only [within, exec, hfault]
      rw [hself]
    | none =>
      simp only [within, exec, hfault]
      rw [ih, hget, hset]

theorem run_within {τ : Type} {get : σ → τ} {set : τ → σ → σ}
    (hget : ∀ t s, get (set t s) = t) (hself : ∀ s, set (get s) s = s)
    (hset : ∀ t u s, set t (set u s) = set t s) (p : Prog τ ε α) (s : σ) :
    (p.within get set).run s = ((p.run (get s)).1, set (p.run (get s)).2 s) :=
  exec_within hget hself hset noFault 0 p s

/-! ## Successful runs

These lemmas turn "the program returned a value" into the conjunction of the
guards it passed and the store it left. -/

theorem run_bind_ok (p : Prog σ ε α) (f : α → Prog σ ε β) (s t : σ) (b : β) :
    (p >>= f).run s = (.ok b, t) ↔ ∃ a u, p.run s = (.ok a, u) ∧ (f a).run u = (.ok b, t) := by
  rw [run_bind]
  rcases hp : p.run s with ⟨_ | a, u⟩
  · simp
  · constructor
    · exact fun h => ⟨a, u, rfl, h⟩
    · rintro ⟨a', u', heq, h⟩
      cases heq
      exact h

@[simp] theorem run_pure_ok (a b : α) (s t : σ) :
    (pure a : Prog σ ε α).run s = (.ok b, t) ↔ a = b ∧ s = t := by
  simp

@[simp] theorem run_write_ok (f : σ → σ) (s t : σ) (a : Unit) :
    (write f : Prog σ ε Unit).run s = (.ok a, t) ↔ f s = t := by
  constructor
  · intro h
    exact congrArg Prod.snd h
  · rintro rfl
    rfl

@[simp] theorem run_ensure_bind_ok (c : Prop) [Decidable c] (e : ε)
    (k : Unit → Prog σ ε β) (s t : σ) (b : β) :
    (ensure c e >>= k).run s = (.ok b, t) ↔ c ∧ (k ()).run s = (.ok b, t) := by
  rw [run_ensure_bind]
  split <;> simp_all

@[simp] theorem run_attempt_bind_ok (f : σ → Option σ) (e : ε)
    (k : Unit → Prog σ ε β) (s t : σ) (b : β) :
    (attempt f e >>= k).run s = (.ok b, t) ↔ ∃ u, f s = some u ∧ (k ()).run u = (.ok b, t) := by
  rw [run_bind]
  unfold attempt
  rw [run_stmt]
  cases hf : f s with
  | none => simp
  | some u => simp [run, exec]

@[simp] theorem run_orFail_bind_ok (o : Option α) (e : ε) (k : α → Prog σ ε β) (s t : σ) (b : β) :
    (orFail o e >>= k).run s = (.ok b, t) ↔ ∃ a, o = some a ∧ (k a).run s = (.ok b, t) := by
  rw [run_bind]
  cases o with
  | none => simp [orFail]
  | some a => simp [orFail, run, exec]

@[simp] theorem run_orFail_ok (o : Option α) (e : ε) (s t : σ) (a : α) :
    (orFail o e : Prog σ ε α).run s = (.ok a, t) ↔ o = some a ∧ s = t := by
  cases o with
  | none => simp [orFail]
  | some b => simp [orFail, run, exec]

@[simp] theorem run_ofExcept_bind_ok (r : Except ε α) (k : α → Prog σ ε β) (s t : σ) (b : β) :
    (ofExcept r >>= k).run s = (.ok b, t) ↔ ∃ a, r = .ok a ∧ (k a).run s = (.ok b, t) := by
  rw [run_bind]
  cases r with
  | error e => simp [ofExcept]
  | ok a => simp [ofExcept, run, exec]

@[simp] theorem run_ofExcept_ok (r : Except ε α) (s t : σ) (a : α) :
    (ofExcept r : Prog σ ε α).run s = (.ok a, t) ↔ r = .ok a ∧ s = t := by
  cases r with
  | error e => simp [ofExcept]
  | ok b => simp [ofExcept, run, exec]

/-- A program that returns under a fault schedule does so when every statement runs. -/
theorem run_of_exec_ok {fault : Fault ε} {n : Nat} {p : Prog σ ε α} {s t : σ} {a : α}
    (h : p.exec fault n s = (.ok a, t)) : p.run s = (.ok a, t) := by
  rcases exec_error_or_run fault n p s with ⟨e, herror⟩ | hrun
  · rw [h] at herror
    cases herror
  · rw [← hrun, h]

/-! ## What a program ensures

A program can be stopped in front of every statement, so an invariant of the
store is owed after each of them; a postcondition is owed only when the program
returns.  `Ensures` is both, and has one rule for each statement. -/

/-- Every statement the program can reach from `s` leaves a store with `I`, and a
value it returns satisfies `Q` in the store it is returned in. -/
def Ensures (I : σ → Prop) (Q : α → σ → Prop) : Prog σ ε α → σ → Prop
  | done a, s => Q a s
  | fail _, _ => True
  | stmt write next, s => I (write s) ∧ Ensures I Q (next s) (write s)

/-- Wherever the program is stopped, the store it leaves has `I`. -/
theorem exec_ensures {I : σ → Prop} {Q : α → σ → Prop} (fault : Fault ε) (n : Nat)
    (p : Prog σ ε α) (s : σ) (hs : I s) (h : p.Ensures I Q s) :
    I (p.exec fault n s).2 := by
  induction p generalizing n s with
  | done a => exact hs
  | fail e => exact hs
  | stmt write next ih =>
    cases hfault : fault n with
    | some e => simpa [exec, hfault] using hs
    | none => simpa [exec, hfault] using ih s (n + 1) (write s) h.1 h.2

/-- A value that is returned has what is ensured of it. -/
theorem exec_ok_ensures {I : σ → Prop} {Q : α → σ → Prop} {fault : Fault ε} {n : Nat}
    {p : Prog σ ε α} {s t : σ} {a : α} (h : p.Ensures I Q s)
    (hexec : p.exec fault n s = (.ok a, t)) : Q a t := by
  induction p generalizing n s with
  | done b =>
    cases hexec
    exact h
  | fail e => cases hexec
  | stmt write next ih =>
    cases hfault : fault n with
    | some e =>
      simp only [exec, hfault] at hexec
      cases hexec
    | none =>
      simp only [exec, hfault] at hexec
      exact ih s h.2 hexec

section Rules

variable {I : σ → Prop} {Q : α → σ → Prop} {R : β → σ → Prop} {s : σ}

theorem ensures_pure {a : α} (h : Q a s) : (pure a : Prog σ ε α).Ensures I Q s := h

theorem ensures_mono {J : σ → Prop} {p : Prog σ ε α} (hi : ∀ t, I t → J t)
    (h : p.Ensures I Q s) : p.Ensures J Q s := by
  induction p generalizing s with
  | done a => exact h
  | fail e => trivial
  | stmt write next ih => exact ⟨hi _ h.1, ih s h.2⟩

theorem ensures_post {Q' : α → σ → Prop} {p : Prog σ ε α} (hq : ∀ a t, Q a t → Q' a t)
    (h : p.Ensures I Q s) : p.Ensures I Q' s := by
  induction p generalizing s with
  | done a => exact hq a s h
  | fail e => trivial
  | stmt write next ih => exact ⟨h.1, ih s h.2⟩

/-- The store in which a value is returned has the invariant too. -/
theorem ensures_with_invariant {p : Prog σ ε α} (hs : I s) (h : p.Ensures I Q s) :
    p.Ensures I (fun a t => I t ∧ Q a t) s := by
  induction p generalizing s with
  | done a => exact ⟨hs, h⟩
  | fail e => trivial
  | stmt write next ih => exact ⟨h.1, ih s h.1 h.2⟩

/-- Sequencing: the second program starts where the first one returns. -/
theorem ensures_bind {p : Prog σ ε β} {f : β → Prog σ ε α} (hs : I s)
    (hp : p.Ensures I R s) (hf : ∀ b t, I t → R b t → (f b).Ensures I Q t) :
    (p >>= f).Ensures I Q s := by
  induction p generalizing s with
  | done b => exact hf b s hs hp
  | fail e => trivial
  | stmt write next ih => exact ⟨hp.1, ih s hp.1 hp.2⟩

theorem ensures_query_bind {f : σ → β} {k : β → Prog σ ε α} (hs : I s)
    (h : (k (f s)).Ensures I Q s) : (query f >>= k).Ensures I Q s := ⟨hs, h⟩

theorem ensures_write_bind {f : σ → σ} {k : Unit → Prog σ ε α} (hs : I (f s))
    (h : (k ()).Ensures I Q (f s)) : (write f >>= k).Ensures I Q s := ⟨hs, h⟩

theorem ensures_update_bind {f : σ → σ} {g : σ → β} {k : β → Prog σ ε α} (hs : I (f s))
    (h : (k (g s)).Ensures I Q (f s)) : (update f g >>= k).Ensures I Q s := ⟨hs, h⟩

theorem ensures_ensure_bind {c : Prop} [Decidable c] {e : ε} {k : Unit → Prog σ ε α}
    (h : c → (k ()).Ensures I Q s) : (ensure c e >>= k).Ensures I Q s := by
  unfold ensure
  split
  · rename_i hc
    exact h hc
  · trivial

theorem ensures_attempt_bind {f : σ → Option σ} {e : ε} {k : Unit → Prog σ ε α} (hs : I s)
    (h : ∀ t, f s = some t → I t ∧ (k ()).Ensures I Q t) :
    (attempt f e >>= k).Ensures I Q s := by
  cases hf : f s with
  | none =>
    refine ⟨?_, ?_⟩
    · simpa [hf] using hs
    · simp only [hf]
      trivial
  | some t =>
    obtain ⟨hi, hk⟩ := h t hf
    refine ⟨?_, ?_⟩
    · simpa [hf] using hi
    · simp only [hf]
      exact hk

theorem ensures_attempt {f : σ → Option σ} {e : ε} {Q : Unit → σ → Prop} (hs : I s)
    (h : ∀ t, f s = some t → I t ∧ Q () t) : (attempt f e).Ensures I Q s := by
  cases hf : f s with
  | none =>
    refine ⟨?_, ?_⟩
    · simpa [hf] using hs
    · simp only [hf]
      trivial
  | some t =>
    obtain ⟨hi, hq⟩ := h t hf
    refine ⟨?_, ?_⟩
    · simpa [hf] using hi
    · simp only [hf]
      exact hq

theorem ensures_orFail_bind {o : Option β} {e : ε} {k : β → Prog σ ε α}
    (h : ∀ b, o = some b → (k b).Ensures I Q s) : (orFail o e >>= k).Ensures I Q s := by
  cases o with
  | none => trivial
  | some b => exact h b rfl

theorem ensures_ofExcept_bind {r : Except ε β} {k : β → Prog σ ε α}
    (h : ∀ b, r = .ok b → (k b).Ensures I Q s) : (ofExcept r >>= k).Ensures I Q s := by
  cases r with
  | error e => trivial
  | ok b => exact h b rfl

theorem ensures_ofExcept {r : Except ε α} (h : ∀ a, r = .ok a → Q a s) :
    (ofExcept r : Prog σ ε α).Ensures I Q s := by
  cases r with
  | error e => trivial
  | ok a => exact h a rfl

theorem ensures_call_bind {f : σ → Except ε (β × σ)} {k : β → Prog σ ε α} (hs : I s)
    (h : ∀ b t, f s = .ok (b, t) → I t ∧ (k b).Ensures I Q t) :
    (call f >>= k).Ensures I Q s := by
  cases hf : f s with
  | error e =>
    refine ⟨?_, ?_⟩
    · simpa [hf] using hs
    · simp only [hf]
      trivial
  | ok r =>
    obtain ⟨hi, hk⟩ := h r.1 r.2 hf
    refine ⟨?_, ?_⟩
    · simpa [hf] using hi
    · simp only [hf]
      exact hk

theorem ensures_trivial (p : Prog σ ε α) (s : σ) :
    p.Ensures (fun _ => True) (fun _ _ => True) s := by
  induction p generalizing s with
  | done a => trivial
  | fail e => trivial
  | stmt write next ih => exact ⟨trivial, ih s (write s)⟩

/-- Within a part of the store: what the program ensures of its value. -/
theorem ensures_within_value {τ : Type} {get : σ → τ} {set : τ → σ → σ} {S : β → Prop}
    {p : Prog τ ε β} (hget : ∀ t u, get (set t u) = t)
    (hp : p.Ensures (fun _ => True) (fun b _ => S b) (get s)) :
    (p.within get set).Ensures (fun _ => True) (fun b _ => S b) s := by
  induction p generalizing s with
  | done b => exact hp
  | fail e => trivial
  | stmt write next ih =>
    refine ⟨trivial, ih _ ?_⟩
    rw [hget]
    exact hp.2

/-- Within a part of the store: what the program ensures of the part is enough for an
invariant of the whole. -/
theorem ensures_within {τ : Type} {get : σ → τ} {set : τ → σ → σ} {J : τ → Prop}
    {p : Prog τ ε β} (hget : ∀ t u, get (set t u) = t)
    (hI : ∀ t u, J t → I u → I (set t u)) (hs : I s) (hp : p.Ensures J (fun _ _ => True) (get s)) :
    (p.within get set).Ensures I (fun _ _ => True) s := by
  induction p generalizing s with
  | done b => trivial
  | fail e => trivial
  | stmt write next ih =>
    have hwrite := hI (write (get s)) s hp.1 hs
    refine ⟨hwrite, ih _ hwrite ?_⟩
    rw [hget]
    exact hp.2

/-- The same with a postcondition: the whole is left as it was but for the part. -/
theorem ensures_within_post {τ : Type} {get : σ → τ} {set : τ → σ → σ} {J : τ → Prop}
    {S : β → τ → Prop} {p : Prog τ ε β} (hget : ∀ t u, get (set t u) = t)
    (hset : ∀ t u v, set t (set u v) = set t v) (hself : set (get s) s = s)
    (hI : ∀ t, J t → I (set t s)) (hp : p.Ensures J S (get s)) :
    (p.within get set).Ensures I (fun b u => ∃ t, S b t ∧ u = set t s) s := by
  have hgeneral : ∀ t, p.Ensures J S t →
      (p.within get set).Ensures I (fun b u => ∃ t, S b t ∧ u = set t s) (set t s) := by
    clear hp
    induction p with
    | done b => exact fun t hp => ⟨t, hp, rfl⟩
    | fail e => exact fun _ _ => trivial
    | stmt write next ih =>
      intro t hp
      have hwrite : set (write (get (set t s))) (set t s) = set (write t) s := by
        rw [hget, hset]
      have hrest := ih t (write t) hp.2
      rw [← hwrite] at hrest
      refine ⟨?_, ?_⟩
      · change I (set (write (get (set t s))) (set t s))
        rw [hwrite]
        exact hI _ hp.1
      · simpa only [hget] using hrest
  rw [← hself]
  simpa only [hself] using hgeneral (get s) hp

end Rules

end Prog

/-! ## Where an execution ends

To show something of the store that an execution leaves, show it of the store
in front of the next statement, where the execution may stop, and of the rest.
-/

namespace Prog

variable {σ ε α β : Type} {P : σ → Prop} {fault : Fault ε} {n : Nat} {s : σ}

theorem end_stmt {write : σ → σ} {next : σ → Prog σ ε α} (hs : P s)
    (h : fault n = none → P ((next s).exec fault (n + 1) (write s)).2) :
    P ((stmt write next).exec fault n s).2 := by
  cases hfault : fault n with
  | some e => simpa [exec, hfault] using hs
  | none => simpa [exec, hfault] using h hfault

theorem end_query_bind {f : σ → β} {k : β → Prog σ ε α} (hs : P s)
    (h : fault n = none → P ((k (f s)).exec fault (n + 1) s).2) :
    P ((query f >>= k).exec fault n s).2 := end_stmt hs h

theorem end_update_bind {f : σ → σ} {g : σ → β} {k : β → Prog σ ε α} (hs : P s)
    (h : fault n = none → P ((k (g s)).exec fault (n + 1) (f s)).2) :
    P ((update f g >>= k).exec fault n s).2 := end_stmt hs h

theorem end_attempt_bind {f : σ → Option σ} {e : ε} {k : Unit → Prog σ ε α} (hs : P s)
    (h : ∀ t, fault n = none → f s = some t → P ((k ()).exec fault (n + 1) t).2) :
    P ((attempt f e >>= k).exec fault n s).2 := by
  refine end_stmt hs ?_
  intro hfault
  cases hf : f s with
  | none =>
    simp only [hf]
    exact hs
  | some t =>
    simp only [hf]
    exact h t hfault hf

theorem end_ensure_bind {c : Prop} [Decidable c] {e : ε} {k : Unit → Prog σ ε α} (hs : P s)
    (h : c → P ((k ()).exec fault n s).2) : P ((ensure c e >>= k).exec fault n s).2 := by
  unfold ensure
  split
  · rename_i hc
    exact h hc
  · exact hs

theorem end_ofExcept_bind {r : Except ε β} {k : β → Prog σ ε α} (hs : P s)
    (h : ∀ b, r = .ok b → P ((k b).exec fault n s).2) :
    P ((ofExcept r >>= k).exec fault n s).2 := by
  cases r with
  | error e => exact hs
  | ok b => exact h b rfl

/-- The number of statements that run. -/
def ran (fault : Fault ε) : Nat → Prog σ ε α → σ → Nat
  | _, done _, _ => 0
  | _, fail _, _ => 0
  | n, stmt write next, s =>
    match fault n with
    | some _ => 0
    | none => ran fault (n + 1) (next s) (write s) + 1

theorem ran_stmt (h : fault n = none) (write : σ → σ) (next : σ → Prog σ ε α) (s : σ) :
    (stmt write next).ran fault n s = (next s).ran fault (n + 1) (write s) + 1 := by
  simp [ran, h]

theorem ran_query_bind (h : fault n = none) (f : σ → α) (k : α → Prog σ ε β) (s : σ) :
    (query f >>= k).ran fault n s = (k (f s)).ran fault (n + 1) s + 1 := ran_stmt h _ _ s

theorem ran_write_bind (h : fault n = none) (f : σ → σ) (k : Unit → Prog σ ε β) (s : σ) :
    (write f >>= k).ran fault n s = (k ()).ran fault (n + 1) (f s) + 1 := ran_stmt h _ _ s

theorem ran_attempt_bind (h : fault n = none) {f : σ → Option σ} {s t : σ} (hf : f s = some t)
    (e : ε) (k : Unit → Prog σ ε β) :
    (attempt f e >>= k).ran fault n s = (k ()).ran fault (n + 1) t + 1 := by
  have hstmt : (attempt f e >>= k).ran fault n s =
      Prog.ran fault (n + 1) ((match f s with
        | some _ => done ()
        | none => fail e : Prog σ ε Unit) >>= k) ((f s).getD s) + 1 := ran_stmt h _ _ s
  rw [hstmt, hf]
  rfl

/-- The second program starts behind the statements of the first one. -/
theorem exec_bind (fault : Fault ε) (n : Nat) (p : Prog σ ε α) (f : α → Prog σ ε β) (s : σ) :
    (p >>= f).exec fault n s =
      match p.exec fault n s with
      | (.ok a, t) => (f a).exec fault (n + p.ran fault n s) t
      | (.error e, t) => (.error e, t) := by
  induction p generalizing n s with
  | done a => rfl
  | fail e => rfl
  | stmt write next ih =>
    change (stmt write fun s => (next s).bind f).exec fault n s = _
    cases hfault : fault n with
    | some e => simp only [exec, hfault]
    | none =>
      have hnext : (next s).bind f = next s >>= f := rfl
      simp only [exec, ran, hfault]
      rw [hnext, ih s (n + 1) (write s), Nat.add_right_comm, ← Nat.add_assoc]

theorem ran_bind_of_ok {p : Prog σ ε α} {f : α → Prog σ ε β} {a : α} {t : σ}
    (h : p.exec fault n s = (.ok a, t)) :
    (p >>= f).ran fault n s = p.ran fault n s + (f a).ran fault (n + p.ran fault n s) t := by
  induction p generalizing n s with
  | done a =>
    cases h
    exact (Nat.zero_add _).symm
  | fail e => cases h
  | stmt write next ih =>
    cases hfault : fault n with
    | some e =>
      simp only [exec, hfault] at h
      cases h
    | none =>
      rw [exec_stmt hfault] at h
      have hbind : stmt write next >>= f = stmt write fun s => next s >>= f := rfl
      rw [hbind, ran_stmt hfault, ran_stmt hfault, ih _ h]
      have hnumber : n + 1 + (next s).ran fault (n + 1) (write s) =
          n + ((next s).ran fault (n + 1) (write s) + 1) := by omega
      rw [hnumber]
      omega

theorem ran_within {τ : Type} {get : σ → τ} {set : τ → σ → σ}
    (hget : ∀ t s, get (set t s) = t) (fault : Fault ε) (n : Nat) (p : Prog τ ε α) (s : σ) :
    (p.within get set).ran fault n s = p.ran fault n (get s) := by
  induction p generalizing n s with
  | done a => rfl
  | fail e => rfl
  | stmt write next ih =>
    cases hfault : fault n with
    | some e => simp only [within, ran, hfault]
    | none =>
      simp only [within, ran, hfault]
      rw [ih, hget]

/-! Of an execution that returns every statement has run. -/

theorem exec_stmt_ok {write : σ → σ} {next : σ → Prog σ ε α} {a : α} {t : σ} :
    (stmt write next).exec fault n s = (.ok a, t) ↔
      fault n = none ∧ (next s).exec fault (n + 1) (write s) = (.ok a, t) := by
  cases hfault : fault n with
  | some e => simp [exec, hfault]
  | none => simp [exec, hfault]

theorem exec_query_bind_ok {f : σ → α} {k : α → Prog σ ε β} {b : β} {t : σ} :
    (query f >>= k).exec fault n s = (.ok b, t) ↔
      fault n = none ∧ (k (f s)).exec fault (n + 1) s = (.ok b, t) := exec_stmt_ok

theorem exec_write_bind_ok {f : σ → σ} {k : Unit → Prog σ ε β} {b : β} {t : σ} :
    (write f >>= k).exec fault n s = (.ok b, t) ↔
      fault n = none ∧ (k ()).exec fault (n + 1) (f s) = (.ok b, t) := exec_stmt_ok

theorem exec_update_bind_ok {f : σ → σ} {g : σ → α} {k : α → Prog σ ε β} {b : β} {t : σ} :
    (update f g >>= k).exec fault n s = (.ok b, t) ↔
      fault n = none ∧ (k (g s)).exec fault (n + 1) (f s) = (.ok b, t) := exec_stmt_ok

theorem exec_bind_ok {p : Prog σ ε α} {f : α → Prog σ ε β} {b : β} {t : σ} :
    (p >>= f).exec fault n s = (.ok b, t) ↔
      ∃ a u, p.exec fault n s = (.ok a, u) ∧
        (f a).exec fault (n + p.ran fault n s) u = (.ok b, t) := by
  rw [exec_bind]
  rcases hp : p.exec fault n s with ⟨_ | a, u⟩
  · simp
  · constructor
    · exact fun h => ⟨a, u, rfl, h⟩
    · rintro ⟨a', u', heq, h⟩
      cases heq
      exact h

/-- The statement in front of which the schedule stops an execution. -/
def stoppedAt (fault : Fault ε) : Nat → Prog σ ε α → σ → Option Nat
  | _, done _, _ => none
  | _, fail _, _ => none
  | n, stmt write next, s =>
    match fault n with
    | some _ => some n
    | none => stoppedAt fault (n + 1) (next s) (write s)

section Stops

variable {R : Option Nat → σ → Prop}

/-- Where an execution stops together with what it leaves there. -/
theorem stop_stmt {write : σ → σ} {next : σ → Prog σ ε α} (hstop : R (some n) s)
    (h : fault n = none → R ((next s).stoppedAt fault (n + 1) (write s))
      ((next s).exec fault (n + 1) (write s)).2) :
    R ((stmt write next).stoppedAt fault n s) ((stmt write next).exec fault n s).2 := by
  cases hfault : fault n with
  | some e => simpa [exec, stoppedAt, hfault] using hstop
  | none => simpa [exec, stoppedAt, hfault] using h hfault

theorem stop_query_bind {f : σ → β} {k : β → Prog σ ε α} (hstop : R (some n) s)
    (h : fault n = none → R ((k (f s)).stoppedAt fault (n + 1) s)
      ((k (f s)).exec fault (n + 1) s).2) :
    R ((query f >>= k).stoppedAt fault n s) ((query f >>= k).exec fault n s).2 :=
  stop_stmt hstop h

theorem stop_write_bind {f : σ → σ} {k : Unit → Prog σ ε α} (hstop : R (some n) s)
    (h : fault n = none → R ((k ()).stoppedAt fault (n + 1) (f s))
      ((k ()).exec fault (n + 1) (f s)).2) :
    R ((write f >>= k).stoppedAt fault n s) ((write f >>= k).exec fault n s).2 :=
  stop_stmt hstop h

theorem stop_ensure_bind {c : Prop} [Decidable c] {e : ε} {k : Unit → Prog σ ε α}
    (hrefused : R none s) (h : c → R ((k ()).stoppedAt fault n s) ((k ()).exec fault n s).2) :
    R ((ensure c e >>= k).stoppedAt fault n s) ((ensure c e >>= k).exec fault n s).2 := by
  unfold ensure
  split
  · rename_i hc
    exact h hc
  · exact hrefused

theorem stop_orFail_bind {o : Option β} {e : ε} {k : β → Prog σ ε α} (hrefused : R none s)
    (h : ∀ b, o = some b → R ((k b).stoppedAt fault n s) ((k b).exec fault n s).2) :
    R ((orFail o e >>= k).stoppedAt fault n s) ((orFail o e >>= k).exec fault n s).2 := by
  cases o with
  | none => exact hrefused
  | some b => exact h b rfl

theorem stop_attempt_bind {f : σ → Option σ} {e : ε} {k : Unit → Prog σ ε α}
    (hstop : R (some n) s) (hrefused : f s = none → R none s)
    (h : ∀ t, f s = some t → R ((k ()).stoppedAt fault (n + 1) t)
      ((k ()).exec fault (n + 1) t).2) :
    R ((attempt f e >>= k).stoppedAt fault n s) ((attempt f e >>= k).exec fault n s).2 := by
  refine stop_stmt hstop ?_
  intro _
  cases hf : f s with
  | none =>
    simp only [hf]
    exact hrefused hf
  | some t =>
    simp only [hf]
    exact h t hf

end Stops

end Prog

/-! ## Transactions -/

/-- How the body of a transaction ends when no error is raised: it commits and
returns `r`, or it returns `r` early and its writes are dropped. -/
inductive Ending (ρ : Type) where
  | committed (r : ρ)
  | dropped (r : ρ)

namespace Prog

variable {σ ε ρ : Type}

/-- Commit and return `r`.  The commit is a statement of its own: it can fail. -/
def commitWith (r : ρ) : Prog σ ε (Ending ρ) := stmt id fun _ => done (.committed r)

/-- Return `r` without committing. -/
def dropWith (r : ρ) : Prog σ ε (Ending ρ) := done (.dropped r)

/-- Run a transaction body.  A raised error rolls the store back. -/
def transaction (fault : Fault ε) (body : Prog σ ε (Ending (Except ε ρ))) (s : σ) :
    Except ε ρ × σ :=
  match body.exec fault 0 s with
  | (.ok (.committed r), t) => (r, t)
  | (.ok (.dropped r), _) => (r, s)
  | (.error e, _) => (.error e, s)

/-- A transaction leaves the store alone, or its whole body ran and committed. -/
theorem transaction_cases (fault : Fault ε) (body : Prog σ ε (Ending (Except ε ρ))) (s : σ) :
    (∃ e, body.transaction fault s = (.error e, s)) ∨
      (∃ r, body.run s = (.ok (.dropped r), (body.run s).2) ∧
        body.transaction fault s = (r, s)) ∨
      ∃ r t, body.run s = (.ok (.committed r), t) ∧ body.transaction fault s = (r, t) := by
  rcases exec_error_or_run fault 0 body s with ⟨e, herror⟩ | hrun
  · refine Or.inl ⟨e, ?_⟩
    unfold transaction
    split <;> simp_all
  · unfold transaction
    rw [hrun]
    rcases body.run s with ⟨_ | ⟨r | r⟩, t⟩
    · exact Or.inl ⟨_, rfl⟩
    · exact Or.inr (Or.inr ⟨r, t, rfl, rfl⟩)
    · exact Or.inr (Or.inl ⟨r, rfl, rfl⟩)

/-- Without faults a transaction does what its body does. -/
theorem transaction_noFault (body : Prog σ ε (Ending (Except ε ρ))) (s : σ) :
    body.transaction noFault s =
      match body.run s with
      | (.ok (.committed r), t) => (r, t)
      | (.ok (.dropped r), _) => (r, s)
      | (.error e, _) => (.error e, s) := rfl

@[simp] theorem run_commitWith_ok (r : ρ) (s t : σ) (x : Ending ρ) :
    (commitWith r : Prog σ ε (Ending ρ)).run s = (.ok x, t) ↔ .committed r = x ∧ s = t := by
  simp [commitWith, run, exec, noFault]

@[simp] theorem run_dropWith_ok (r : ρ) (s t : σ) (x : Ending ρ) :
    (dropWith r : Prog σ ε (Ending ρ)).run s = (.ok x, t) ↔ .dropped r = x ∧ s = t := by
  simp [dropWith, run, exec]

end Prog

end DevRelay.Lib
