import Mathlib.Data.List.Basic
import Mathlib.Tactic.Common

/-!
# Runs

A run applies a step function to a list of calls.  `stateAt` reads the state
after the first `n` calls, so that a property of the whole history is a
statement about natural numbers: what holds at every point, what stays once it
holds, and where a property came from.
-/

namespace DevRelay.Lib

variable {σ κ : Type} (step : σ → κ → σ)

/-- The state after the first `n` calls. -/
def stateAt (s : σ) (calls : List κ) (n : Nat) : σ := (calls.take n).foldl step s

variable {step} {s : σ} {calls : List κ}

@[simp] theorem stateAt_zero : stateAt step s calls 0 = s := rfl

theorem stateAt_succ {n : Nat} (h : n < calls.length) :
    stateAt step s calls (n + 1) = step (stateAt step s calls n) calls[n] := by
  have htake : calls.take (n + 1) = calls.take n ++ [calls[n]] := by
    rw [List.take_succ_eq_append_getElem h]
  rw [stateAt, htake, List.foldl_append]
  rfl

theorem stateAt_length : stateAt step s calls calls.length = calls.foldl step s := by
  rw [stateAt, List.take_length]

theorem stateAt_of_length_le {n : Nat} (h : calls.length ≤ n) :
    stateAt step s calls n = calls.foldl step s := by
  rw [stateAt, List.take_of_length_le h]

/-- What the steps of this run preserve from some point on stays from that
point on. -/
theorem stateAt_induction_from {P : σ → Prop} {m : Nat} (hm : P (stateAt step s calls m))
    (hstep : ∀ i, m ≤ i → (hi : i < calls.length) → P (stateAt step s calls i) →
      P (step (stateAt step s calls i) calls[i])) {n : Nat} (hmn : m ≤ n) :
    P (stateAt step s calls n) := by
  induction hmn with
  | refl => exact hm
  | @step n hmn ih =>
    by_cases hn : n < calls.length
    · rw [stateAt_succ hn]
      exact hstep n hmn hn ih
    · rw [stateAt_of_length_le (by omega)]
      rwa [stateAt_of_length_le (by omega)] at ih

/-- What holds at the start and is preserved by the steps of this run holds
throughout. -/
theorem stateAt_induction {I : σ → Prop} (hs : I s)
    (hstep : ∀ i, (hi : i < calls.length) → I (stateAt step s calls i) →
      I (step (stateAt step s calls i) calls[i])) (n : Nat) : I (stateAt step s calls n) :=
  stateAt_induction_from hs (fun i _ => hstep i) (Nat.zero_le n)

/-- What holds at the start and is preserved by every step holds throughout. -/
theorem stateAt_invariant {I : σ → Prop} (hs : I s)
    (hstep : ∀ t call, I t → I (step t call)) (n : Nat) : I (stateAt step s calls n) :=
  stateAt_induction hs (fun _ _ => hstep _ _) n

/-- What every step preserves stays from the moment it holds. -/
theorem stateAt_stable {P : σ → Prop} (hstep : ∀ t call, P t → P (step t call))
    {m n : Nat} (hmn : m ≤ n) (hm : P (stateAt step s calls m)) :
    P (stateAt step s calls n) :=
  stateAt_induction_from hm (fun _ _ _ => hstep _ _) hmn

/-- A property that does not hold at the start and holds later was brought in
by a call. -/
theorem exists_step_of_stateAt {P : σ → Prop} (hs : ¬P s) {n : Nat}
    (hn : P (stateAt step s calls n)) :
    ∃ i, ∃ h : i < calls.length, i < n ∧ ¬P (stateAt step s calls i) ∧
      P (step (stateAt step s calls i) calls[i]) := by
  induction n with
  | zero => exact absurd hn hs
  | succ n ih =>
    by_cases hprev : P (stateAt step s calls n)
    · obtain ⟨i, hlt, hin, hbefore, hafter⟩ := ih hprev
      exact ⟨i, hlt, by omega, hbefore, hafter⟩
    · by_cases hlen : n < calls.length
      · rw [stateAt_succ hlen] at hn
        exact ⟨n, hlen, by omega, hprev, hn⟩
      · rw [stateAt_of_length_le (by omega)] at hn hprev
        exact absurd hn hprev

/-- What one call brings about and every call keeps holds after a run that
contains the call. -/
theorem foldl_of_mem {P : σ → Prop} {call : κ} (hmem : call ∈ calls)
    (hbring : ∀ t, P (step t call)) (hkeep : ∀ t call, P t → P (step t call)) :
    P (calls.foldl step s) := by
  obtain ⟨before, after, hcalls⟩ := List.append_of_mem hmem
  rw [hcalls, List.foldl_append, List.foldl_cons]
  apply List.foldlRecOn
  · exact hbring _
  · intro t ht next _
    exact hkeep t next ht

end DevRelay.Lib
