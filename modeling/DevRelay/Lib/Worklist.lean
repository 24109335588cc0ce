import Mathlib.Data.List.Dedup
import Mathlib.Logic.Relation
import Mathlib.Tactic.Common

/-!
# Following links with a work list

A stack of elements is worked off: an element that was visited is skipped, the
end of an element's link is recorded and pushed.  What is recorded are the ends
of the links of everything that is reachable from the initial stack.
-/

namespace DevRelay.Lib

variable {α σ : Type}

/-- Reachable from an element of the stack along links. -/
def Reachable (next : α → Option α) (frontier : List α) (x : α) : Prop :=
  ∃ d ∈ frontier, Relation.ReflTransGen (fun c p => next c = some p) d x

variable {next : α → Option α} {frontier : List α}

theorem reachable_of_mem {x : α} (h : x ∈ frontier) : Reachable next frontier x :=
  ⟨x, h, Relation.ReflTransGen.refl⟩

theorem reachable_next {x y : α} (h : Reachable next frontier x) (hxy : next x = some y) :
    Reachable next frontier y := by
  obtain ⟨d, hd, hdx⟩ := h
  exact ⟨d, hd, hdx.tail hxy⟩

/-- A set that holds the stack and is closed under links holds what is reachable. -/
theorem mem_of_reachable {S : α → Prop} {x : α} (hS : ∀ d ∈ frontier, S d)
    (hclosed : ∀ c p, S c → next c = some p → S p) (h : Reachable next frontier x) :
    S x := by
  obtain ⟨d, hd, hdx⟩ := h
  induction hdx with
  | refl => exact hS d hd
  | tail _ hlink ih => exact hclosed _ _ ih hlink

variable [DecidableEq α]

/-- `none` when the fuel runs out with elements left. -/
def followLinks (next : α → Option α) (record : σ → α → σ) :
    Nat → List α → List α → σ → Option σ
  | _, [], _, s => some s
  | 0, _ :: _, _, _ => none
  | fuel + 1, x :: frontier, visited, s =>
    if x ∈ visited then
      followLinks next record fuel frontier visited s
    else
      match next x with
      | none => followLinks next record fuel frontier (x :: visited) s
      | some y =>
        followLinks next record fuel (y :: frontier) (x :: visited) (record s y)

variable {record : σ → α → σ} {visited : List α} {s t : σ}

/-- The fuel covers the stack and one push for every element with a link. -/
theorem followLinks_isSome {sources : List α}
    (hsources : ∀ x y, next x = some y → x ∈ sources) (fuel : Nat)
    (hfuel : frontier.length + (sources.filter (· ∉ visited)).length ≤ fuel) :
    ∃ t, followLinks next record fuel frontier visited s = some t := by
  induction fuel generalizing frontier visited s with
  | zero =>
    have hnil : frontier = [] := List.length_eq_zero_iff.mp (by omega)
    subst hnil
    exact ⟨s, rfl⟩
  | succ fuel ih =>
    cases frontier with
    | nil => exact ⟨s, rfl⟩
    | cons x frontier =>
      rw [List.length_cons] at hfuel
      have hle : (sources.filter (· ∉ x :: visited)).length ≤
          (sources.filter (· ∉ visited)).length := by
        apply List.Sublist.length_le
        apply List.monotone_filter_right
        intro y hy
        simp only [List.mem_cons, not_or, decide_eq_true_eq] at hy ⊢
        exact hy.2
      rw [followLinks]
      split
      · exact ih (by omega)
      · rename_i hx
        cases hnext : next x with
        | none => exact ih (by omega)
        | some y =>
          refine ih ?_
          -- the visited element leaves the sources that are still open
          have hlt : (sources.filter (· ∉ x :: visited)).length <
              (sources.filter (· ∉ visited)).length := by
            have hmem : x ∈ sources.filter (· ∉ visited) :=
              List.mem_filter.mpr ⟨hsources x y hnext, by simpa using hx⟩
            have hfilter : sources.filter (· ∉ x :: visited) =
                (sources.filter (· ∉ visited)).filter (· ≠ x) := by
              rw [List.filter_filter]
              apply List.filter_congr
              intro z _
              simp [List.mem_cons, not_or]
            rw [hfilter]
            refine List.length_filter_lt_length_iff_exists.mpr ⟨x, hmem, ?_⟩
            simp
          rw [List.length_cons]
          omega

/-- What the records keep, when every recorded element satisfies `P`. -/
theorem followLinks_invariant {I : σ → Prop} {P : α → Prop} {fuel : Nat}
    (hrun : followLinks next record fuel frontier visited s = some t) (hs : I s)
    (hfrontier : ∀ x ∈ frontier, P x) (hnext : ∀ x y, P x → next x = some y → P y)
    (hrecord : ∀ s x y, I s → P x → next x = some y → I (record s y)) : I t := by
  induction fuel generalizing frontier visited s with
  | zero =>
    cases frontier with
    | nil =>
      cases hrun
      exact hs
    | cons x frontier => cases hrun
  | succ fuel ih =>
    cases frontier with
    | nil =>
      cases hrun
      exact hs
    | cons x frontier =>
      obtain ⟨hx, hrest⟩ := List.forall_mem_cons.mp hfrontier
      rw [followLinks] at hrun
      split at hrun
      · exact ih hrun hs hrest
      · cases hlink : next x with
        | none =>
          rw [hlink] at hrun
          exact ih hrun hs hrest
        | some y =>
          rw [hlink] at hrun
          exact ih hrun (hrecord s x y hs hx hlink)
            (List.forall_mem_cons.mpr ⟨hnext x y hx hlink, hrest⟩)

/-- Every link of a reachable element is recorded: `R s y` says that `y` is recorded in
`s`, and records stay. -/
theorem followLinks_complete {R : σ → α → Prop} {fuel : Nat}
    (hrun : followLinks next record fuel frontier [] s = some t)
    (hnew : ∀ s y, R (record s y) y) (hstay : ∀ s x y, R s y → R (record s x) y)
    {x y : α} (hx : Reachable next frontier x) (hxy : next x = some y) : R t y := by
  -- the visited elements are closed up to the stack, and their links are recorded
  have hgeneral : ∀ (fuel : Nat) (frontier visited : List α) (s : σ),
      followLinks next record fuel frontier visited s = some t →
      (∀ c p, c ∈ visited → next c = some p → R s p ∧ (p ∈ visited ∨ p ∈ frontier)) →
      ∃ closed : List α, (∀ c, c ∈ visited ∨ c ∈ frontier → c ∈ closed) ∧
        ∀ c p, c ∈ closed → next c = some p → R t p ∧ p ∈ closed := by
    intro fuel
    induction fuel with
    | zero =>
      intro frontier visited s hrun hinv
      cases frontier with
      | cons x frontier => cases hrun
      | nil =>
        cases hrun
        refine ⟨visited, by simp, fun c p hc hp => ?_⟩
        obtain ⟨hR, hmem⟩ := hinv c p hc hp
        exact ⟨hR, by simpa using hmem⟩
    | succ fuel ih =>
      intro frontier visited s hrun hinv
      cases frontier with
      | nil =>
        cases hrun
        refine ⟨visited, by simp, fun c p hc hp => ?_⟩
        obtain ⟨hR, hmem⟩ := hinv c p hc hp
        exact ⟨hR, by simpa using hmem⟩
      | cons x frontier =>
        rw [followLinks] at hrun
        split at hrun
        · rename_i hvisited
          obtain ⟨closed, hsub, hclosed⟩ := ih frontier visited s hrun (by
            intro c p hc hp
            obtain ⟨hR, hmem⟩ := hinv c p hc hp
            refine ⟨hR, ?_⟩
            rcases hmem with hmem | hmem
            · exact Or.inl hmem
            · rcases List.mem_cons.mp hmem with rfl | hmem
              · exact Or.inl hvisited
              · exact Or.inr hmem)
          refine ⟨closed, fun c hc => hsub c ?_, hclosed⟩
          rcases hc with hc | hc
          · exact Or.inl hc
          · rcases List.mem_cons.mp hc with rfl | hc
            · exact Or.inl hvisited
            · exact Or.inr hc
        · cases hlink : next x with
          | none =>
            rw [hlink] at hrun
            obtain ⟨closed, hsub, hclosed⟩ := ih frontier (x :: visited) s hrun (by
              intro c p hc hp
              rcases List.mem_cons.mp hc with rfl | hc
              · rw [hlink] at hp
                cases hp
              · obtain ⟨hR, hmem⟩ := hinv c p hc hp
                refine ⟨hR, ?_⟩
                rw [List.mem_cons] at hmem ⊢
                tauto)
            refine ⟨closed, fun c hc => hsub c ?_, hclosed⟩
            rw [List.mem_cons] at hc ⊢
            tauto
          | some y =>
            rw [hlink] at hrun
            obtain ⟨closed, hsub, hclosed⟩ :=
              ih (y :: frontier) (x :: visited) (record s y) hrun (by
                intro c p hc hp
                rcases List.mem_cons.mp hc with rfl | hc
                · rw [hlink] at hp
                  cases hp
                  exact ⟨hnew s y, Or.inr List.mem_cons_self⟩
                · obtain ⟨hR, hmem⟩ := hinv c p hc hp
                  refine ⟨hstay s y p hR, ?_⟩
                  rw [List.mem_cons] at hmem ⊢
                  rw [List.mem_cons]
                  tauto)
            refine ⟨closed, fun c hc => hsub c ?_, hclosed⟩
            rw [List.mem_cons] at hc ⊢
            rw [List.mem_cons]
            tauto
  obtain ⟨closed, hsub, hclosed⟩ := hgeneral fuel frontier [] s hrun
    (fun c _ hc _ => absurd hc List.not_mem_nil)
  have hxclosed : x ∈ closed :=
    mem_of_reachable (fun d hd => hsub d (Or.inr hd))
      (fun c p hc hp => (hclosed c p hc hp).2) hx
  exact (hclosed x y hxclosed hxy).1

end DevRelay.Lib
