import Mathlib.Tactic.Common

/-!
# Sequences of checks

A validation is a sequence of checks that stops at the first failure.  It
succeeds exactly when every check does.
-/

namespace DevRelay.Lib

variable {ε α : Type}

/-- A single check. -/
def require (condition : Bool) (error : ε) : Except ε Unit :=
  if condition then .ok () else .error error

@[simp] theorem require_eq_ok {condition : Bool} {error : ε} :
    require condition error = .ok () ↔ condition = true := by
  unfold require
  split
  · simp_all
  · simp_all

@[simp] theorem bind_eq_ok {check : Except ε Unit} {next : Unit → Except ε Unit} :
    (check >>= next) = .ok () ↔ check = .ok () ∧ next () = .ok () := by
  cases check with
  | error e => simp [Bind.bind, Except.bind]
  | ok u => simp [Bind.bind, Except.bind]

/-- A computation succeeds when its first part does and the rest does on its value. -/
theorem bind_eq_ok_iff {β : Type} {x : Except ε β} {next : β → Except ε α} {a : α} :
    (x >>= next) = .ok a ↔ ∃ b, x = .ok b ∧ next b = .ok a := by
  cases x with
  | error e => simp [Bind.bind, Except.bind]
  | ok b => simp [Bind.bind, Except.bind]

/-- The value of a check says nothing. -/
theorem exists_unit {p : Unit → Prop} : (∃ u, p u) ↔ p () :=
  ⟨fun ⟨_, h⟩ => h, fun h => ⟨(), h⟩⟩

/-- A condition in the middle of a `do` block that throws. -/
theorem guard_eq_ok {c : Prop} [Decidable c] {e : ε} {next : Unit → Except ε α} {a : α} :
    (if c then throw e >>= next else next ()) = .ok a ↔ ¬c ∧ next () = .ok a := by
  split
  · rename_i hc
    simp [hc, throw, throwThe, MonadExceptOf.throw, Bind.bind, Except.bind]
  · rename_i hc
    simp [hc]

/-- Run a check over a list, in order. -/
def checkEach (check : α → Except ε Unit) : List α → Except ε Unit
  | [] => .ok ()
  | x :: xs => do
    check x
    checkEach check xs

@[simp] theorem checkEach_eq_ok {check : α → Except ε Unit} {xs : List α} :
    checkEach check xs = .ok () ↔ ∀ x ∈ xs, check x = .ok () := by
  induction xs with
  | nil => simp [checkEach]
  | cons x xs ih => rw [checkEach, bind_eq_ok, ih, List.forall_mem_cons]

end DevRelay.Lib
