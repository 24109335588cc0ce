import DevRelay.Journal.Lines

/-!
# Records by operation

Sorting keeps the records of one operation in the order of the file as long as
their numbers do not fall, so replay and cleanup can be read off the file order.
-/

namespace DevRelay.Journal

open DevRelay.Lib DevRelay.Core

/-! ## The order of the numbers -/

theorem bySequenceNumber_perm (rs : List CrashJournalRecord) :
    (bySequenceNumber rs).Perm rs := List.perm_insertionSort _ _

theorem mem_bySequenceNumber {rs : List CrashJournalRecord} {r : CrashJournalRecord} :
    r ∈ bySequenceNumber rs ↔ r ∈ rs := (bySequenceNumber_perm rs).mem_iff

theorem bySequenceNumber_pairwise (rs : List CrashJournalRecord) :
    (bySequenceNumber rs).Pairwise fun a b => a.sequenceNumber ≤ b.sequenceNumber :=
  List.pairwise_insertionSort _ _

/-- The records of one operation. -/
def own (operationId : String) (rs : List CrashJournalRecord) : List CrashJournalRecord :=
  rs.filter fun r => r.operationId = operationId

@[simp] theorem own_append (o : String) (rs ss : List CrashJournalRecord) :
    own o (rs ++ ss) = own o rs ++ own o ss := List.filter_append ..

theorem own_singleton (o : String) (r : CrashJournalRecord) :
    own o [r] = if r.operationId = o then [r] else [] := by
  unfold own
  by_cases h : r.operationId = o
  · simp [h]
  · simp [h]

theorem mem_own {o : String} {rs : List CrashJournalRecord} {r : CrashJournalRecord} :
    r ∈ own o rs ↔ r ∈ rs ∧ r.operationId = o := by
  unfold own
  rw [List.mem_filter, decide_eq_true_eq]

theorem own_own (o o' : String) (rs : List CrashJournalRecord) :
    own o (own o' rs) = if o = o' then own o rs else [] := by
  unfold own
  rw [List.filter_filter]
  by_cases h : o = o'
  · subst h
    simp
  · rw [if_neg h, List.filter_eq_nil_iff]
    intro r _ hr
    simp only [Bool.and_eq_true, decide_eq_true_eq] at hr
    exact h (hr.1.symm.trans hr.2)

/-- The numbers of each operation do not fall. -/
def Ordered (rs : List CrashJournalRecord) : Prop :=
  ∀ o, (own o rs).Pairwise fun a b => a.sequenceNumber ≤ b.sequenceNumber

theorem own_bySequenceNumber {rs : List CrashJournalRecord} (h : Ordered rs) (o : String) :
    own o (bySequenceNumber rs) = own o rs := by
  have hsublist : (own o rs).Sublist (bySequenceNumber rs) :=
    List.sublist_insertionSort (h o) List.filter_sublist
  have hown : (own o (own o rs)).Sublist (own o (bySequenceNumber rs)) :=
    hsublist.filter _
  rw [own_own, if_pos rfl] at hown
  have hlength : (own o (bySequenceNumber rs)).length = (own o rs).length :=
    ((bySequenceNumber_perm rs).filter _).length_eq
  exact (hown.eq_of_length hlength.symm).symm

theorem bySequenceNumber_of_ordered {rs : List CrashJournalRecord} (h : Ordered rs)
    (o : String) : bySequenceNumber (own o rs) = own o rs :=
  List.Pairwise.insertionSort_eq (h o)

/-! ## The next number -/

/-- No record has a number above the last one of a sorted list. -/
theorem le_getLast {rs : List CrashJournalRecord} {last r : CrashJournalRecord}
    (hlast : (bySequenceNumber rs).getLast? = some last) (hr : r ∈ rs) :
    r.sequenceNumber ≤ last.sequenceNumber := by
  obtain ⟨front, hfront⟩ := List.getLast?_eq_some_iff.mp hlast
  have hpairwise := bySequenceNumber_pairwise rs
  have hmem := mem_bySequenceNumber.mpr hr
  rw [hfront] at hpairwise hmem
  rcases List.mem_append.mp hmem with h | h
  · exact (List.pairwise_append.mp hpairwise).2.2 r h last List.mem_cons_self
  · rw [List.mem_singleton.mp h]
    exact UInt64.le_refl _

/-- The number given to the next record of a file with the records `rs`. -/
def nextOf (rs : List CrashJournalRecord) : UInt64 :=
  match (bySequenceNumber rs).getLast? with
  | some record => saturatingAdd record.sequenceNumber 1
  | none => 1

theorem le_nextOf {rs : List CrashJournalRecord} {r : CrashJournalRecord} (hr : r ∈ rs) :
    r.sequenceNumber ≤ nextOf rs := by
  unfold nextOf
  split
  · rename_i last hlast
    have hle := UInt64.le_iff_toNat_le.mp (le_getLast hlast hr)
    rw [UInt64.le_iff_toNat_le, toNat_saturatingAdd]
    have hlt := r.sequenceNumber.toNat_lt
    change r.sequenceNumber.toNat ≤ min (last.sequenceNumber.toNat + 1) (2 ^ 64 - 1)
    omega
  · rename_i hnone
    have hnil := List.getLast?_eq_none_iff.mp hnone
    have hmem := mem_bySequenceNumber.mpr hr
    rw [hnil] at hmem
    cases hmem

/-- As long as the numbers are bounded, the next one is fresh and within the next
bound. -/
theorem nextOf_fresh {rs : List CrashJournalRecord} {n : Nat} (hn : n + 1 < 2 ^ 64)
    (hbound : ∀ r ∈ rs, r.sequenceNumber.toNat ≤ n) :
    (nextOf rs).toNat ≤ n + 1 ∧ ∀ r ∈ rs, r.sequenceNumber < nextOf rs := by
  unfold nextOf
  split
  · rename_i last hlast
    have hmem : last ∈ rs := mem_bySequenceNumber.mp (List.mem_of_getLast? hlast)
    have hlastBound := hbound last hmem
    have hvalue : (saturatingAdd last.sequenceNumber 1).toNat = last.sequenceNumber.toNat + 1 := by
      rw [toNat_saturatingAdd]
      change min (last.sequenceNumber.toNat + 1) (2 ^ 64 - 1) = _
      omega
    refine ⟨by omega, fun r hr => ?_⟩
    have hle := UInt64.le_iff_toNat_le.mp (le_getLast hlast hr)
    rw [UInt64.lt_iff_toNat_lt, hvalue]
    omega
  · rename_i hnone
    have hnil := List.getLast?_eq_none_iff.mp hnone
    refine ⟨by simp, fun r hr => ?_⟩
    have hmem := mem_bySequenceNumber.mpr hr
    rw [hnil] at hmem
    cases hmem

/-! ## The latest record -/

/-- The last record that was written for an operation. -/
def lastOf (rs : List CrashJournalRecord) (o : String) : Option CrashJournalRecord :=
  (own o rs).getLast?

/-- The last record of the operation is a terminal one. -/
def completed (rs : List CrashJournalRecord) (o : String) : Bool :=
  (lastOf rs o).any fun r => r.phase.isTerminal

theorem replayOperation_eq {rs : List CrashJournalRecord} (h : Ordered rs) (o : String) :
    replayOperation (bySequenceNumber rs) o = {
        operationId := o
        records := own o rs
        latestPhase := (lastOf rs o).map CrashJournalRecord.phase
        terminal := completed rs o } := by
  have hown : bySequenceNumber (own o (bySequenceNumber rs)) = own o rs := by
    rw [own_bySequenceNumber h, bySequenceNumber_of_ordered h]
  unfold replayOperation
  change ({ operationId := o
            records := bySequenceNumber (own o (bySequenceNumber rs))
            latestPhase := (bySequenceNumber (own o (bySequenceNumber rs))).getLast?.map
              CrashJournalRecord.phase
            terminal := ((bySequenceNumber (own o (bySequenceNumber rs))).getLast?.map
              CrashJournalRecord.phase).any CrashJournalPhase.isTerminal } :
    CrashJournalOperationReplay) = _
  rw [hown, Option.any_map]
  rfl

/-- The operations of a file, in the order of a replay. -/
def operationsOf (rs : List CrashJournalRecord) : List String :=
  (((bySequenceNumber rs).map CrashJournalRecord.operationId).dedup).insertionSort (· ≤ ·)

theorem mem_operationsOf {rs : List CrashJournalRecord} {o : String} :
    o ∈ operationsOf rs ↔ ∃ r ∈ rs, r.operationId = o := by
  unfold operationsOf
  rw [List.mem_insertionSort, List.mem_dedup, List.mem_map]
  simp only [mem_bySequenceNumber]

theorem operationsOf_nodup (rs : List CrashJournalRecord) : (operationsOf rs).Nodup :=
  (List.perm_insertionSort _ _).nodup_iff.mpr (List.nodup_dedup _)

theorem own_eq_nil {rs : List CrashJournalRecord} {o : String} (h : o ∉ operationsOf rs) :
    own o rs = [] := by
  rw [own, List.filter_eq_nil_iff]
  intro r hr
  rw [decide_eq_true_eq]
  exact fun heq => h (mem_operationsOf.mpr ⟨r, hr, heq⟩)

/-- The operations of a replay that are not terminal. -/
theorem mem_incomplete {rs : List CrashJournalRecord} (h : Ordered rs) (o : String) :
    (∃ op ∈ (operationsOf rs).map (replayOperation (bySequenceNumber rs)),
        op.operationId = o ∧ op.terminal = false) ↔
      ∃ r, lastOf rs o = some r ∧ r.phase.isTerminal = false := by
  constructor
  · rintro ⟨op, hop, hid, hopen⟩
    obtain ⟨o', ho', rfl⟩ := List.mem_map.mp hop
    rw [replayOperation_eq h] at hid hopen
    subst hid
    obtain ⟨r, hr, hid⟩ := mem_operationsOf.mp ho'
    cases hlast : lastOf rs o' with
    | none =>
      have hnil := List.getLast?_eq_none_iff.mp hlast
      have hmem : r ∈ own o' rs := mem_own.mpr ⟨hr, hid⟩
      rw [hnil] at hmem
      cases hmem
    | some last =>
      refine ⟨last, rfl, ?_⟩
      change completed rs o' = false at hopen
      unfold completed at hopen
      rw [hlast] at hopen
      exact hopen
  · rintro ⟨r, hlast, hopen⟩
    have hmem := mem_own.mp (List.mem_of_getLast? hlast)
    refine ⟨_, List.mem_map_of_mem (mem_operationsOf.mpr ⟨r, hmem.1, hmem.2⟩), ?_, ?_⟩
    · rw [replayOperation_eq h]
    · rw [replayOperation_eq h]
      change completed rs o = false
      unfold completed
      rw [hlast]
      exact hopen

/-! ## Cleanup -/

theorem own_flatMap {rs : List CrashJournalRecord} {os : List String} (hos : os.Nodup)
    (o : String) :
    own o (os.flatMap fun o' => own o' rs) = if o ∈ os then own o rs else [] := by
  induction os with
  | nil => rfl
  | cons head os ih =>
    obtain ⟨hhead, htail⟩ := List.nodup_cons.mp hos
    rw [List.flatMap_cons, own_append, own_own, ih htail]
    by_cases heq : o = head
    · subst heq
      rw [if_pos rfl, if_neg hhead, List.append_nil, if_pos List.mem_cons_self]
    · rw [if_neg heq, List.nil_append]
      by_cases hmem : o ∈ os
      · rw [if_pos hmem, if_pos (List.mem_cons_of_mem head hmem)]
      · rw [if_neg hmem, if_neg]
        intro h
        rcases List.mem_cons.mp h with h | h
        · exact heq h
        · exact hmem h

/-- The records that a cleanup writes back. -/
def retained (rs : List CrashJournalRecord) : List CrashJournalRecord :=
  retainedRecords ((operationsOf rs).map (replayOperation (bySequenceNumber rs)))

theorem retained_eq {rs : List CrashJournalRecord} (h : Ordered rs) :
    retained rs = ((operationsOf rs).filter fun o => !completed rs o).flatMap
      fun o => own o rs := by
  have hreplay : replayOperation (bySequenceNumber rs) = fun o =>
      { operationId := o
        records := own o rs
        latestPhase := (lastOf rs o).map CrashJournalRecord.phase
        terminal := completed rs o } := funext fun o => replayOperation_eq h o
  rw [retained, retainedRecords, hreplay, List.filter_map, List.flatMap_map]
  rfl

theorem own_retained {rs : List CrashJournalRecord} (h : Ordered rs) (o : String) :
    own o (retained rs) = if completed rs o then [] else own o rs := by
  rw [retained_eq h, own_flatMap ((operationsOf_nodup rs).filter _)]
  by_cases hmem : o ∈ operationsOf rs
  · cases hcase : completed rs o with
    | true => simp [hcase]
    | false => simp [hcase, hmem]
  · rw [if_neg (fun hin => hmem (List.mem_filter.mp hin).1), own_eq_nil hmem, ite_self]

end DevRelay.Journal
