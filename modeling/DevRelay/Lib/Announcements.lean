import DevRelay.Lib.Interleaving

/-!
# Announced changes

A value lives in a shared state, and calls that change it announce each change in
a log, in a step of its own: with the value before, read in an earlier step, and
the value after.  A call is `quiet`, or is `owing` the announcement of its
change.  When no call changes the value while another call that it concerns is in
progress, the announcements form a chain, and the last one is up to date
whenever no call is in progress.
-/

namespace DevRelay.Lib

/-- A value in a state, and the log of its changes: what was before and after. -/
structure Announced (σ V : Type) where
  value : σ → Option V
  log : σ → List (Option V × V)

namespace Announced

variable {σ V : Type} (A : Announced σ V)

/-- The value that the last announcement leaves. -/
def last (s : σ) : Option V := (A.log s).getLast?.map Prod.snd

def InSync (s : σ) : Prop := A.last s = A.value s

end Announced

/-- Each announcement has as the value before what the announcement before it
leaves, the first one nothing. -/
def Chained {V : Type} (log : List (Option V × V)) : Prop :=
  ∀ (n : Nat) e, log[n]? = some e → e.1 = (log.take n).getLast?.map Prod.snd

theorem chained_nil {V : Type} : Chained ([] : List (Option V × V)) := by
  intro n e he
  rw [List.getElem?_nil] at he
  cases he

theorem Chained.concat {V : Type} {log : List (Option V × V)} (hlog : Chained log)
    {before : Option V} (hbefore : before = log.getLast?.map Prod.snd) (after : V) :
    Chained (log ++ [(before, after)]) := by
  intro n e he
  have hn : n < (log ++ [(before, after)]).length := (List.getElem?_eq_some_iff.mp he).1
  rw [List.length_append, List.length_singleton] at hn
  rcases Nat.lt_or_eq_of_le (Nat.le_of_lt_succ hn) with hlt | rfl
  · rw [List.getElem?_append_left hlt] at he
    rw [List.take_append_of_le_length (by omega)]
    exact hlog n e he
  · rw [List.getElem?_concat_length] at he
    cases he
    rw [List.take_append_of_le_length (Nat.le_refl _), List.take_length]
    exact hbefore

/-! ## Calls -/

/-- What a call owes to the log. -/
inductive Mode (V : Type) where
  | quiet
  | owing (before : Option V)

/-- A value that calls change and announce: which states and inputs occur, which
calls the value concerns, and what every step keeps. -/
structure Reporting (κ ι σ V : Type) extends Announced σ V where
  invariant : σ → Prop
  allowed : κ → ι → σ → Prop
  concerns : κ → σ → Prop
  kept : σ → σ → Prop
  kept_refl : ∀ s, kept s s
  kept_trans : ∀ {s t u}, kept s t → kept t u → kept s u
  concerns_kept : ∀ {call s t}, kept s t → concerns call s → concerns call t

namespace Reporting

variable {κ ι σ V : Type} (D : Reporting κ ι σ V) (call : κ)

/-- What is known of the state while a call owes an announcement. -/
def Standing : Mode V → σ → Prop
  | .quiet, _ => True
  | .owing before, s => D.concerns call s ∧ D.last s = before ∧ D.value s ≠ before

/-- What others may do between two steps of a call. -/
def Between : Mode V → σ → σ → Prop
  | .quiet, s, t => D.kept s t ∧ (D.concerns call s → D.value t = D.value s)
  | .owing _, s, t => D.kept s t ∧ D.value t = D.value s

/-- A step of a call: it leaves the value and the log alone, changes the value, or
announces the change. -/
inductive Moves (s t : σ) : Mode V → Mode V → Prop where
  | idle (m : Mode V) (hvalue : D.value t = D.value s) (hlog : D.log t = D.log s) :
      Moves s t m m
  | change (hconcerns : D.concerns call t) (hvalue : D.value t ≠ D.value s)
      (hlog : D.log t = D.log s) : Moves s t .quiet (.owing (D.value s))
  | announce {before : Option V} {after : V} (hafter : D.value s = some after)
      (hvalue : D.value t = D.value s) (hlog : D.log t = D.log s ++ [(before, after)]) :
      Moves s t (.owing before) .quiet

variable {D call}

theorem between_refl (m : Mode V) (s : σ) : D.Between call m s s := by
  cases m with
  | quiet => exact ⟨D.kept_refl s, fun _ => rfl⟩
  | owing before => exact ⟨D.kept_refl s, rfl⟩

theorem Between.trans {m : Mode V} {s t u : σ} (hst : D.Between call m s t)
    (htu : D.Between call m t u) : D.Between call m s u := by
  cases m with
  | quiet =>
    refine ⟨D.kept_trans hst.1 htu.1, fun hconcerns => ?_⟩
    exact (htu.2 (D.concerns_kept hst.1 hconcerns)).trans (hst.2 hconcerns)
  | owing before => exact ⟨D.kept_trans hst.1 htu.1, htu.2.trans hst.2⟩

theorem Between.kept {m : Mode V} {s t : σ} (hst : D.Between call m s t) : D.kept s t := by
  cases m with
  | quiet => exact hst.1
  | owing before => exact hst.1

/-- The value of a call that it concerns stays between its steps. -/
theorem Between.value {m : Mode V} {s t : σ} (hst : D.Between call m s t)
    (hconcerns : D.concerns call s) : D.value t = D.value s := by
  cases m with
  | quiet => exact hst.2 hconcerns
  | owing before => exact hst.2

/-! ### The announcement that is due -/

/-- What is known of the state while no other call owes an announcement. -/
def Due (D : Reporting κ ι σ V) (call : κ) : Mode V → σ → Prop
  | .quiet, s => D.InSync s
  | .owing before, s => D.Standing call (.owing before) s

theorem Due.standing {m : Mode V} {s : σ} (hdue : D.Due call m s) : D.Standing call m s := by
  cases m with
  | quiet => trivial
  | owing before => exact hdue

theorem last_congr {s t : σ} (hlog : D.log t = D.log s) : D.last t = D.last s := by
  rw [Announced.last, Announced.last, hlog]

/-- A step leaves due what its new mode says. -/
theorem Moves.due {m m' : Mode V} {s t : σ} (hmoves : D.Moves call s t m m')
    (hkept : D.kept s t) (hdue : D.Due call m s) : D.Due call m' t := by
  cases hmoves with
  | idle _ hvalue hlog =>
    cases m with
    | quiet =>
      show D.last t = D.value t
      rw [last_congr hlog, hvalue]
      exact hdue
    | owing before =>
      obtain ⟨hconcerns, hlast, hne⟩ := hdue
      exact ⟨D.concerns_kept hkept hconcerns, (last_congr hlog).trans hlast,
        by rw [hvalue]; exact hne⟩
  | change hconcerns hvalue hlog =>
    exact ⟨hconcerns, (last_congr hlog).trans hdue, hvalue⟩
  | announce hafter hvalue hlog =>
    show D.last t = D.value t
    rw [Announced.last, hlog, hvalue, hafter, List.getLast?_concat]
    rfl

theorem Moves.chained {m m' : Mode V} {s t : σ} (hmoves : D.Moves call s t m m')
    (hdue : D.Due call m s) (hchained : Chained (D.log s)) : Chained (D.log t) := by
  cases hmoves with
  | idle _ _ hlog =>
    rw [hlog]
    exact hchained
  | change _ _ hlog =>
    rw [hlog]
    exact hchained
  | announce _ _ hlog =>
    rw [hlog]
    exact hchained.concat hdue.2.1.symm _

end Reporting

namespace Thread

variable {κ ι σ ε α β V : Type} (D : Reporting κ ι σ V) (call : κ)

/-- Every step of the thread, in the mode `m` before the first, is one of `Moves`,
and the thread ends with a result, a mode and a state that satisfy `Q`. -/
def Reports (Q : Except ε α → Mode V → σ → Prop) : Mode V → Thread ι σ ε α → σ → Prop
  | m, done a, s => Q (.ok a) m s
  | m, fail e, s => Q (.error e) m s
  | m, atomic act next, s => ∀ t, D.invariant t → D.Standing call m t →
      D.Between call m s t → ∀ i, D.allowed call i t →
        ∃ m', D.Moves call t (act i t) m m' ∧ Reports Q m' (next i t) (act i t)

variable {D call} {Q : Except ε α → Mode V → σ → Prop} {m : Mode V} {s : σ}

theorem reports_ofExcept {r : Except ε α} (hr : Q r m s) :
    (ofExcept r : Thread ι σ ε α).Reports D call Q m s := by
  cases r with
  | ok a => exact hr
  | error e => exact hr

theorem reports_atomically {f : ι → σ → Except ε α × σ}
    (hf : ∀ t, D.invariant t → D.Standing call m t → D.Between call m s t →
      ∀ i, D.allowed call i t →
        ∃ m', D.Moves call t (f i t).2 m m' ∧ Q (f i t).1 m' (f i t).2) :
    (atomically f).Reports D call Q m s := by
  intro t ht hstanding hst i hi
  obtain ⟨m', hmoves, hq⟩ := hf t ht hstanding hst i hi
  exact ⟨m', hmoves, reports_ofExcept hq⟩

theorem reports_observe {f : ι → σ → Except ε α}
    (hf : ∀ t, D.invariant t → D.Standing call m t → D.Between call m s t →
      ∀ i, D.allowed call i t → Q (f i t) m t) :
    (observe f).Reports D call Q m s :=
  reports_atomically fun t ht hstanding hst i hi =>
    ⟨m, .idle m rfl rfl, hf t ht hstanding hst i hi⟩

theorem Reports.bind {Q' : Except ε β → Mode V → σ → Prop} {p : Thread ι σ ε α}
    {f : α → Thread ι σ ε β} (hp : p.Reports D call Q m s)
    (hok : ∀ a m' t, Q (.ok a) m' t → (f a).Reports D call Q' m' t)
    (herror : ∀ e m' t, Q (.error e) m' t → Q' (.error e) m' t) :
    (p >>= f).Reports D call Q' m s := by
  induction p generalizing m s with
  | done a => exact hok a m s hp
  | fail e => exact herror e m s hp
  | atomic act next ih =>
    intro t ht hstanding hst i hi
    obtain ⟨m', hmoves, hnext⟩ := hp t ht hstanding hst i hi
    exact ⟨m', hmoves, ih i t hnext⟩

theorem Reports.between {p : Thread ι σ ε α} {t : σ} (hp : p.Reports D call Q m s)
    (hunfinished : p.finished = false) (hst : D.Between call m s t) :
    p.Reports D call Q m t := by
  cases p with
  | done a => cases hunfinished
  | fail e => cases hunfinished
  | atomic act next =>
    intro u hu hstanding htu i hi
    exact hp u hu hstanding (hst.trans htu) i hi

/-- A value is returned with `K`, and a failure leaves nothing to announce. -/
def Leaves (K : α → Mode V → σ → Prop) : Except ε α → Mode V → σ → Prop
  | .ok a, m, s => K a m s
  | .error _, m, _ => m = .quiet

section

variable {K : α → Mode V → σ → Prop}

theorem leaves_pure {a : α} (ha : K a m s) :
    (pure a : Thread ι σ ε α).Reports D call (Leaves K) m s := ha

theorem leaves_fail (e : ε) : (fail e : Thread ι σ ε α).Reports D call (Leaves K) .quiet s := rfl

theorem leaves_check {r : Except ε β} {k : β → Thread ι σ ε α}
    (hk : ∀ b, r = .ok b → (k b).Reports D call (Leaves K) .quiet s) :
    ((ofExcept r : Thread ι σ ε β) >>= k).Reports D call (Leaves K) .quiet s := by
  cases r with
  | ok b => exact hk b rfl
  | error e => rfl

theorem leaves_observe {f : ι → σ → Except ε α}
    (hf : ∀ t, D.invariant t → D.Between call .quiet s t → ∀ i, D.allowed call i t →
      ∀ a, f i t = .ok a → K a .quiet t) :
    (observe f).Reports D call (Leaves K) .quiet s := by
  apply reports_observe
  intro t ht _ hst i hi
  cases hresult : f i t with
  | ok a => exact hf t ht hst i hi a hresult
  | error e => rfl

theorem Reports.andThen {K' : β → Mode V → σ → Prop} {p : Thread ι σ ε α}
    {f : α → Thread ι σ ε β} (hp : p.Reports D call (Leaves K) m s)
    (hf : ∀ a m' t, K a m' t → (f a).Reports D call (Leaves K') m' t) :
    (p >>= f).Reports D call (Leaves K') m s :=
  hp.bind hf fun _ _ _ h => h

end

/-- A call ends with everything announced. -/
def Settles (_ : Except ε α) (m : Mode V) (_ : σ) : Prop := m = .quiet

theorem Reports.mono {Q' : Except ε α → Mode V → σ → Prop} {p : Thread ι σ ε α}
    (hp : p.Reports D call Q m s) (hQ : ∀ r m s, Q r m s → Q' r m s) :
    p.Reports D call Q' m s := by
  induction p generalizing m s with
  | done a => exact hQ _ _ _ hp
  | fail e => exact hQ _ _ _ hp
  | atomic act next ih =>
    intro t ht hstanding hst i hi
    obtain ⟨m', hmoves, hnext⟩ := hp t ht hstanding hst i hi
    exact ⟨m', hmoves, ih i t hnext⟩

theorem Reports.settles {p : Thread ι σ ε α}
    (hp : p.Reports D call (Leaves fun _ m _ => m = .quiet) m s) :
    p.Reports D call Settles m s := by
  apply hp.mono
  intro r m t hr
  cases r with
  | ok a => exact hr
  | error e => exact hr

theorem Reports.unfinished {before : Option V} {p : Thread ι σ ε α}
    (hp : p.Reports D call Settles (.owing before) s) : p.finished = false := by
  cases p with
  | done a => cases hp
  | fail e => cases hp
  | atomic act next => rfl

end Thread

/-! ## Runs -/

namespace Pool

variable {κ ι σ ε α V : Type} (D : Reporting κ ι σ V) (program : κ → Thread ι σ ε α)

/-- Everything is announced, or exactly one call owes an announcement. -/
inductive Accounts (pool : Pool κ ι σ ε α) : Prop where
  | settled (hsync : D.InSync pool.state)
      (hcalls : ∀ c ∈ pool.calls, c.2.finished = false →
        c.2.Reports D c.1 Thread.Settles .quiet pool.state)
  | owed (i : Nat) (call : κ) (p : Thread ι σ ε α) (before : Option V)
      (hi : pool.calls[i]? = some (call, p))
      (hp : p.Reports D call Thread.Settles (.owing before) pool.state)
      (hstanding : D.Standing call (.owing before) pool.state)
      (hcalls : ∀ (j : Nat) c, j ≠ i → pool.calls[j]? = some c → c.2.finished = false →
        c.2.Reports D c.1 Thread.Settles .quiet pool.state)

structure Reported (pool : Pool κ ι σ ε α) : Prop where
  invariant : D.invariant pool.state
  chained : Chained (D.log pool.state)
  accounts : pool.Accounts D

/-- Every step finds an allowed input. -/
def Allowed (s : σ) (moves : List (Move κ ι)) : Prop :=
  ∀ n i input, moves[n]? = some (.advance i input) →
    ∀ c, (after program s moves n).calls[i]? = some c → c.2.finished = false →
      D.allowed c.1 input (after program s moves n).state

/-- No step of one call changes the value while another call that it concerns is
in progress. -/
def Undisturbed (s : σ) (moves : List (Move κ ι)) : Prop :=
  ∀ n i input, moves[n]? = some (.advance i input) →
    ∀ (j : Nat) c, j ≠ i → (after program s moves n).calls[j]? = some c →
      c.2.finished = false → D.concerns c.1 (after program s moves n).state →
      D.value (after program s moves (n + 1)).state =
        D.value (after program s moves n).state

variable {D program}

/-- Only the call `i` may owe an announcement, and it is in the mode `m`. -/
theorem Accounts.of_due {pool : Pool κ ι σ ε α} {i : Nat} {call : κ} {p : Thread ι σ ε α}
    {m : Mode V} (hi : pool.calls[i]? = some (call, p)) (hdue : D.Due call m pool.state)
    (hp : p.Reports D call Thread.Settles m pool.state)
    (hothers : ∀ (j : Nat) c, j ≠ i → pool.calls[j]? = some c → c.2.finished = false →
      c.2.Reports D c.1 Thread.Settles .quiet pool.state) : pool.Accounts D := by
  cases m with
  | quiet =>
    refine .settled hdue fun c hc hc' => ?_
    obtain ⟨j, hj⟩ := List.mem_iff_getElem?.mp hc
    by_cases hji : j = i
    · subst hji
      cases hi.symm.trans hj
      exact hp
    · exact hothers j c hji hj hc'
  | owing before => exact .owed i call p before hi hp hdue hothers

theorem Reported.arrive {pool : Pool κ ι σ ε α} (hpool : pool.Reported D) (call : κ)
    (hprog : (program call).Reports D call Thread.Settles .quiet pool.state) :
    (pool.step program (.arrive call)).Reported D := by
  refine ⟨hpool.invariant, hpool.chained, ?_⟩
  cases hpool.accounts with
  | settled hsync hcalls =>
    refine .settled hsync fun c hc hc' => ?_
    rcases List.mem_append.mp hc with hc | hc
    · exact hcalls c hc hc'
    · cases List.mem_singleton.mp hc
      exact hprog
  | owed i call' p before hi hp hstanding hcalls =>
    have hlt : i < pool.calls.length := (List.getElem?_eq_some_iff.mp hi).1
    refine .owed i call' p before ?_ hp hstanding fun j c hj hc hc' => ?_
    · exact (List.getElem?_append_left hlt).trans hi
    · have hc : (pool.calls ++ [(call, program call)])[j]? = some c := hc
      by_cases hlast : j < pool.calls.length
      · rw [List.getElem?_append_left hlast] at hc
        exact hcalls j c hj hc hc'
      · have hlen : j < (pool.calls ++ [(call, program call)]).length :=
          (List.getElem?_eq_some_iff.mp hc).1
        rw [List.length_append, List.length_singleton] at hlen
        have hj' : j = pool.calls.length := by omega
        rw [hj', List.getElem?_concat_length] at hc
        cases hc
        exact hprog

/-- A step of the call `i`, which leads to the state `t` and disturbs no other call. -/
structure Advances (D : Reporting κ ι σ V) (pool : Pool κ ι σ ε α) (i : Nat) (call : κ)
    (act : ι → σ → σ) (next : ι → σ → Thread ι σ ε α) (input : ι) (t : σ) : Prop where
  moved : t = act input pool.state
  caller : pool.calls[i]? = some (call, .atomic act next)
  allowed : D.allowed call input pool.state
  kept : D.kept pool.state t
  invariant : D.invariant t
  undisturbed : ∀ (j : Nat) c, j ≠ i → pool.calls[j]? = some c → c.2.finished = false →
    D.concerns c.1 pool.state → D.value t = D.value pool.state

section Advance

variable {pool : Pool κ ι σ ε α} {i : Nat} {call : κ} {act : ι → σ → σ}
  {next : ι → σ → Thread ι σ ε α} {input : ι} {t : σ}

theorem Advances.self (h : pool.Advances D i call act next input t) :
    (pool.calls.set i (call, next input pool.state))[i]? = some (call, next input pool.state) :=
  List.getElem?_set_self (List.getElem?_eq_some_iff.mp h.caller).1

/-- The other calls do not notice the step. -/
theorem Advances.other (h : pool.Advances D i call act next input t) {j : Nat}
    {c : κ × Thread ι σ ε α} (hj : j ≠ i)
    (hc : (pool.calls.set i (call, next input pool.state))[j]? = some c)
    (hc' : c.2.finished = false)
    (hold : pool.calls[j]? = some c → c.2.Reports D c.1 Thread.Settles .quiet pool.state) :
    c.2.Reports D c.1 Thread.Settles .quiet t := by
  rw [List.getElem?_set_ne hj.symm] at hc
  exact (hold hc).between hc' ⟨h.kept, h.undisturbed j c hj hc hc'⟩

/-- The step of the call that may owe an announcement. -/
theorem Reported.advance_due (hpool : pool.Reported D)
    (h : pool.Advances D i call act next input t) {m : Mode V} (hdue : D.Due call m pool.state)
    (hp : (Thread.atomic act next).Reports D call Thread.Settles m pool.state)
    (hothers : ∀ (j : Nat) c, j ≠ i → pool.calls[j]? = some c → c.2.finished = false →
      c.2.Reports D c.1 Thread.Settles .quiet pool.state) :
    (Pool.mk t (pool.calls.set i (call, next input pool.state))).Reported D := by
  obtain ⟨m', hmoves, hnext⟩ := hp pool.state hpool.invariant hdue.standing
    (Reporting.between_refl _ _) input h.allowed
  rw [← h.moved] at hmoves hnext
  refine ⟨h.invariant, hmoves.chained hdue hpool.chained,
    .of_due h.self (hmoves.due h.kept hdue) hnext fun j c hj hc hc' => ?_⟩
  exact h.other hj hc hc' fun hc => hothers j c hj hc hc'

/-- The step of a call while another one owes an announcement: the value and the log stay. -/
theorem Reported.advance_beside (hpool : pool.Reported D)
    (h : pool.Advances D i call act next input t) {k : Nat} {call' : κ}
    {p : Thread ι σ ε α} {before : Option V} (hki : k ≠ i) (hk : pool.calls[k]? = some (call', p))
    (hp : p.Reports D call' Thread.Settles (.owing before) pool.state)
    (hstanding : D.Standing call' (.owing before) pool.state)
    (hcalls : ∀ (j : Nat) c, j ≠ k → pool.calls[j]? = some c → c.2.finished = false →
      c.2.Reports D c.1 Thread.Settles .quiet pool.state) :
    (Pool.mk t (pool.calls.set i (call, next input pool.state))).Reported D := by
  have hsame : D.value t = D.value pool.state :=
    h.undisturbed k _ hki hk hp.unfinished hstanding.1
  obtain ⟨m', hmoves, hnext⟩ := hcalls i _ hki.symm h.caller rfl pool.state hpool.invariant
    trivial (Reporting.between_refl _ _) input h.allowed
  rw [← h.moved] at hmoves hnext
  have hquiet : m' = .quiet ∧ D.log t = D.log pool.state := by
    cases hmoves with
    | idle _ _ hlog => exact ⟨rfl, hlog⟩
    | change _ hvalue _ => exact absurd hsame hvalue
  obtain ⟨rfl, hlog⟩ := hquiet
  have hidle : D.Moves call' pool.state t (.owing before) (.owing before) :=
    .idle _ hsame hlog
  have hk' : (pool.calls.set i (call, next input pool.state))[k]? = some (call', p) := by
    rw [List.getElem?_set_ne hki.symm]
    exact hk
  refine ⟨h.invariant, hidle.chained hstanding hpool.chained,
    .of_due hk' (hidle.due h.kept hstanding)
      (hp.between hp.unfinished ⟨h.kept, hsame⟩) fun j c hj hc hc' => ?_⟩
  by_cases hji : j = i
  · subst hji
    cases h.self.symm.trans hc
    exact hnext
  · exact h.other hji hc hc' fun hc => hcalls j c hj hc hc'

theorem Reported.advance (hpool : pool.Reported D) (h : pool.Advances D i call act next input t) :
    (Pool.mk t (pool.calls.set i (call, next input pool.state))).Reported D := by
  cases hpool.accounts with
  | settled hsync hcalls =>
    exact hpool.advance_due h (m := .quiet) hsync (hcalls _ (List.mem_of_getElem? h.caller) rfl)
      fun j c _ hc hc' => hcalls c (List.mem_of_getElem? hc) hc'
  | owed k call' p before hk hp hstanding hcalls =>
    by_cases hki : k = i
    · subst hki
      cases hk.symm.trans h.caller
      exact hpool.advance_due h (m := .owing before) hstanding hp hcalls
    · exact hpool.advance_beside h hki hk hp hstanding hcalls

end Advance

/-- In a run whose inputs are allowed and in which no call is disturbed, the log
is a chain and at most one announcement is outstanding. -/
theorem reported_after {s : σ} (hinvariant : D.invariant s) (hempty : D.log s = [])
    (hnone : D.value s = none) (hprog : ∀ call s, D.invariant s →
      (program call).Reports D call Thread.Settles .quiet s)
    {moves : List (Move κ ι)} (hsteps : EveryStep program s moves fun _ s t =>
      D.kept s t ∧ (D.invariant s → D.invariant t))
    (hallowed : Allowed D program s moves) (hundisturbed : Undisturbed D program s moves)
    (n : Nat) : (after program s moves n).Reported D := by
  apply stateAt_induction (I := fun pool : Pool κ ι σ ε α => pool.Reported D)
  · refine ⟨hinvariant, ?_, .settled ?_ fun c hc => absurd hc List.not_mem_nil⟩
    · show Chained (D.log s)
      rw [hempty]
      exact chained_nil
    · show D.last s = D.value s
      rw [Announced.last, hempty, hnone]
      rfl
  · intro k hk hpool
    cases hmove : moves[k] with
    | arrive call => exact hpool.arrive call (hprog call _ hpool.invariant)
    | advance i input =>
      have hstep := hsteps k hk
      have hmove? : moves[k]? = some (.advance i input) := by
        rw [List.getElem?_eq_getElem hk, hmove]
      have hquiet := hundisturbed k i input hmove?
      rw [after_succ hk, hmove] at hstep hquiet
      simp only [Pool.step, caller] at hstep hquiet ⊢
      cases hcall : (after program s moves k).calls[i]? with
      | none => exact hpool
      | some c =>
        obtain ⟨call, p⟩ := c
        cases p with
        | done a => exact hpool
        | fail e => exact hpool
        | atomic act next =>
          rw [hcall] at hstep hquiet
          obtain ⟨hkept, hinv⟩ := hstep.1 call rfl
          exact hpool.advance ⟨rfl, hcall, hallowed k i input hmove? _ hcall rfl, hkept,
            hinv hpool.invariant, hquiet⟩

/-- When no call is in progress, everything is announced. -/
theorem Reported.inSync {pool : Pool κ ι σ ε α} (hpool : pool.Reported D)
    (hidle : ∀ c ∈ pool.calls, c.2.finished = true) : D.InSync pool.state := by
  cases hpool.accounts with
  | settled hsync _ => exact hsync
  | owed i call p before hi hp _ _ =>
    have hunfinished := hp.unfinished
    rw [hidle _ (List.mem_of_getElem? hi)] at hunfinished
    cases hunfinished

end Pool

end DevRelay.Lib
