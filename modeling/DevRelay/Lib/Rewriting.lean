import Mathlib.Data.List.Basic
import Mathlib.Data.List.Infix

/-!
# Rewriting a text from left to right

At each place a step may take a run of characters and say what stands for it; a character that
begins no run is kept.  This is what a loop of `find`, and of the slices around what it finds,
makes of a text.
-/

namespace DevRelay.Lib

variable {α : Type}

/-- What stands for a run, and how many characters the run has. -/
abbrev RunStep (α : Type) : Type := List α → Option (List α × ℕ)

/-- The first `skip` characters belong to a run that was taken before. -/
def rewriteFrom (step : RunStep α) : ℕ → List α → List α
  | _, [] => []
  | skip + 1, _ :: rest => rewriteFrom step skip rest
  | 0, c :: rest =>
    match step (c :: rest) with
    | some (output, length) => output ++ rewriteFrom step (length - 1) rest
    | none => c :: rewriteFrom step 0 rest

/-- Every run is replaced. -/
def rewrite (step : RunStep α) (text : List α) : List α := rewriteFrom step 0 text

/-- `str::replace`, of a word that is not empty. -/
def replaceAll [DecidableEq α] (word mask text : List α) : List α :=
  rewrite (fun rest => if word.isPrefixOf rest then some (mask, word.length) else none) text

section

variable {step : RunStep α} {text before behind output : List α} {c : α} {length : ℕ}

theorem rewriteFrom_eq (skip : ℕ) (text : List α) :
    rewriteFrom step skip text = rewrite step (text.drop skip) := by
  induction text generalizing skip with
  | nil => simp [rewrite, rewriteFrom]
  | cons c rest ih =>
    cases skip with
    | zero => rfl
    | succ skip => rw [rewriteFrom, List.drop_succ_cons, ih]

theorem rewrite_kept (h : step (c :: text) = none) :
    rewrite step (c :: text) = c :: rewrite step text := by
  rw [rewrite, rewriteFrom, h]
  rfl

/-- A run is replaced, and the next one is looked for behind it. -/
theorem rewrite_taken (hne : text ≠ []) (h : step text = some (output, length))
    (hpos : 0 < length) : rewrite step text = output ++ rewrite step (text.drop length) := by
  cases text with
  | nil => exact absurd rfl hne
  | cons c rest =>
    rw [rewrite, rewriteFrom, h]
    dsimp only
    rw [rewriteFrom_eq]
    obtain ⟨length, rfl⟩ : ∃ n, length = n + 1 := ⟨length - 1, by omega⟩
    rfl

/-- A run is never empty. -/
def TakesRuns (step : RunStep α) : Prop :=
  ∀ text output length, step text = some (output, length) → 0 < length

/-- A run is written as it was. -/
def Settled (step : RunStep α) (text : List α) : Prop :=
  ∀ rest, rest <:+ text → ∀ output length, step rest = some (output, length) →
    output = rest.take length

/-- The runs that begin in the first part end there, and do not depend on what is behind it. -/
def EndsWithin (step : RunStep α) (before behind : List α) : Prop :=
  ∀ rest, rest <:+ before → rest ≠ [] → step (rest ++ behind) = step rest ∧
    ∀ output length, step rest = some (output, length) → length ≤ rest.length

/-- A text is rewritten in two parts where no run crosses between them. -/
theorem rewrite_append (hruns : TakesRuns step) (h : EndsWithin step before behind) :
    rewrite step (before ++ behind) = rewrite step before ++ rewrite step behind := by
  induction hlength : before.length using Nat.strong_induction_on generalizing before with
  | h n ih =>
    subst hlength
    cases before with
    | nil => rfl
    | cons c rest =>
      obtain ⟨hsame, hwithin⟩ := h _ List.suffix_rfl (List.cons_ne_nil c rest)
      have hbehind {suffix : List α} (hsuffix : suffix <:+ c :: rest) :
          EndsWithin step suffix behind :=
        fun later hlater => h later (hlater.trans hsuffix)
      cases hstep : step (c :: rest) with
      | none =>
        have hjoined : step (c :: (rest ++ behind)) = none := hsame.trans hstep
        rw [List.cons_append, rewrite_kept hjoined, rewrite_kept hstep,
          ih _ (by simp) (hbehind (List.suffix_cons c rest)) rfl, List.cons_append]
      | some taken =>
        obtain ⟨output, length⟩ := taken
        have hpos : 0 < length := hruns _ _ _ hstep
        have hle : length ≤ (c :: rest).length := hwithin _ _ hstep
        rw [rewrite_taken (by simp) (hsame.trans hstep) hpos,
          rewrite_taken (List.cons_ne_nil c rest) hstep hpos,
          List.drop_append_of_le_length hle,
          ih _ _ (hbehind (List.drop_suffix length _)) rfl, List.append_assoc]
        rw [List.length_drop, List.length_cons]
        omega

/-- A part in which no run begins is kept. -/
theorem rewrite_append_kept
    (h : ∀ rest, rest <:+ before → rest ≠ [] → step (rest ++ behind) = none) :
    rewrite step (before ++ behind) = before ++ rewrite step behind := by
  induction before with
  | nil => rfl
  | cons c rest ih =>
    have hhead : step (c :: (rest ++ behind)) = none :=
      h _ List.suffix_rfl (List.cons_ne_nil c rest)
    rw [List.cons_append, rewrite_kept hhead, ih fun later hlater =>
      h later (hlater.trans (List.suffix_cons c rest)), List.cons_append]

/-- A run is written as it was, or as it was up to a mark. -/
def MarksAt (mark : α) (step : RunStep α) : Prop :=
  ∀ text output length, step text = some (output, length) →
    output = text.take length ∨
      ∃ common more, output = common ++ mark :: more ∧ common <+: text.take length

/-- What begins an output and has no mark begins the text. -/
theorem isPrefix_of_rewrite {mark : α} {word : List α} (hruns : TakesRuns step)
    (hmarks : MarksAt mark step) (hword : mark ∉ word) (h : word <+: rewrite step text) :
    word <+: text := by
  induction hlength : text.length using Nat.strong_induction_on generalizing text word with
  | h n ih =>
    subst hlength
    cases text with
    | nil => exact h
    | cons c rest =>
      cases hstep : step (c :: rest) with
      | none =>
        rw [rewrite_kept hstep] at h
        cases word with
        | nil => exact List.nil_prefix
        | cons a word =>
          obtain ⟨rfl, hrest⟩ := List.cons_prefix_cons.mp h
          have hbehind := ih _ (by simp) (fun hmem => hword (List.mem_cons_of_mem _ hmem))
            hrest rfl
          exact List.cons_prefix_cons.mpr ⟨rfl, hbehind⟩
      | some taken =>
        obtain ⟨output, length⟩ := taken
        have hpos : 0 < length := hruns _ _ _ hstep
        rw [rewrite_taken (List.cons_ne_nil c rest) hstep hpos] at h
        rcases hmarks _ _ _ hstep with rfl | ⟨common, more, rfl, hcommon⟩
        · rcases List.prefix_or_prefix_of_prefix h (List.prefix_append _ _) with
            hwithin | ⟨later, rfl⟩
          · exact hwithin.trans (List.take_prefix length _)
          · have hlater : later <+: rewrite step ((c :: rest).drop length) :=
              (List.prefix_append_right_inj _).mp h
            have hbehind : later <+: (c :: rest).drop length := by
              apply ih _ _ (fun hmem => hword (List.mem_append_right _ hmem)) hlater rfl
              rw [List.length_drop, List.length_cons]
              omega
            calc
              (c :: rest).take length ++ later
                  <+: (c :: rest).take length ++ (c :: rest).drop length :=
                (List.prefix_append_right_inj _).mpr hbehind
              _ = c :: rest := List.take_append_drop length _
        · -- the output has a mark where the word has none
          have htext : common <+: c :: rest := hcommon.trans (List.take_prefix length _)
          rw [List.append_assoc] at h
          rcases List.prefix_or_prefix_of_prefix h (List.prefix_append common _) with
            hwithin | ⟨later, rfl⟩
          · exact hwithin.trans htext
          · have hlater := (List.prefix_append_right_inj _).mp h
            cases later with
            | nil => rwa [List.append_nil]
            | cons a later =>
              obtain ⟨rfl, -⟩ := List.cons_prefix_cons.mp hlater
              exact absurd (List.mem_append_right common (List.mem_cons_self ..)) hword

end

end DevRelay.Lib
