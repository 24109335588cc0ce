import DevRelay.Core.Lease
import DevRelay.Lib.PartialMap

/-!
# The handoff ledger

What the lease and handoff tables are for, without rows, columns or statements:
a lease is held by one device, and a handoff moves it to another one in phases.
The ledger maps identifiers to records; `Step` lists what may happen to it.
`Consistent` is the invariant of every run: a lease is pending exactly while
the handoff it names is open.
-/

namespace DevRelay.Storage

open DevRelay.Lib DevRelay.Core

structure Ledger where
  lease : String → Option LeaseRecord
  handoff : String → Option HandoffRecord

namespace Ledger

/-! ## Operations -/

/-- Open a handoff and mark its lease as pending. -/
def begin (s : Ledger) (h : HandoffRecord) : Ledger where
  lease := alterAt s.lease h.leaseId fun l =>
    { l with state := .handoffPending, handoffId := some h.handoffId }
  handoff := assign s.handoff h.handoffId h

/-- Move a handoff to its next phase. -/
def mark (s : Ledger) (h : HandoffRecord) (next : HandoffState) : Ledger where
  lease := s.lease
  handoff := assign s.handoff h.handoffId { h with state := next }

/-- Give the lease back to its holder, if it still names the handoff. -/
def released (handoffId : String) (l : LeaseRecord) : LeaseRecord :=
  if l.handoffId = some handoffId then { l with state := .active, handoffId := none }
  else l

/-- Close a handoff without moving its lease. -/
def abort (s : Ledger) (h : HandoffRecord) : Ledger where
  lease := alterAt s.lease h.leaseId (released h.handoffId)
  handoff := assign s.handoff h.handoffId { h with state := .aborted }

/-- Close a handoff and move its lease to the target under a new epoch. -/
def commit (s : Ledger) (h : HandoffRecord) (epoch : UInt64) : Ledger where
  lease := alterAt s.lease h.leaseId fun l =>
    { l with
      state := .active
      epoch := epoch
      holderDeviceId := some h.targetDeviceId
      handoffId := none }
  handoff := assign s.handoff h.handoffId { h with state := .committed }

/-- Advance the canonical latest snapshot of a lease. -/
def advance (s : Ledger) (leaseId snapshotId : String) : Ledger where
  lease := alterAt s.lease leaseId fun l => { l with latestSnapshotId := some snapshotId }
  handoff := s.handoff

/-- Set an inactive lease apart. -/
def fork (s : Ledger) (leaseId : String) : Ledger where
  lease := alterAt s.lease leaseId fun l => { l with state := .forked }
  handoff := s.handoff

/-- What may happen to a ledger. -/
inductive Step (s : Ledger) : Ledger → Prop where
  | begin (l : LeaseRecord) (h : HandoffRecord)
      (hlease : s.lease h.leaseId = some l) (hactive : l.state = .active)
      (hfresh : s.handoff h.handoffId = none) (hprepare : h.state = .targetPrepare)
      (hepoch : h.expectedEpoch = l.epoch) : Step s (s.begin h)
  | mark (h : HandoffRecord) (next : HandoffState)
      (hstored : s.handoff h.handoffId = some h) (hopen : h.state.isTerminal = false)
      (hnext : next.isTerminal = false) : Step s (s.mark h next)
  | abort (h : HandoffRecord) (hstored : s.handoff h.handoffId = some h)
      (hopen : h.state.isTerminal = false) : Step s (s.abort h)
  | commit (l : LeaseRecord) (h : HandoffRecord) (epoch : UInt64)
      (hstored : s.handoff h.handoffId = some h) (hready : h.state = .sourceReady)
      (hlease : s.lease h.leaseId = some l) (hnamed : l.handoffId = some h.handoffId)
      (hepoch : l.epoch = h.expectedEpoch) : Step s (s.commit h epoch)
  | advance (leaseId snapshotId : String) : Step s (s.advance leaseId snapshotId)
  | fork (l : LeaseRecord) (leaseId : String) (hlease : s.lease leaseId = some l)
      (hinactive : l.state = .inactive) : Step s (s.fork leaseId)

/-! ## The invariant -/

/-- A lease is pending exactly while the handoff it names is open, for that
lease and for its epoch. -/
structure Consistent (s : Ledger) : Prop where
  openPending : ∀ handoffId h, s.handoff handoffId = some h →
    h.state.isTerminal = false →
    ∃ l, s.lease h.leaseId = some l ∧ l.state = .handoffPending ∧
      l.handoffId = some handoffId ∧ l.epoch = h.expectedEpoch
  pendingOpen : ∀ leaseId l, s.lease leaseId = some l → l.state = .handoffPending →
    ∃ handoffId h, l.handoffId = some handoffId ∧ s.handoff handoffId = some h ∧
      h.leaseId = leaseId ∧ h.state.isTerminal = false

/-- With nothing pending and every handoff closed there is nothing to relate. -/
theorem consistent_of_closed {s : Ledger}
    (hleases : ∀ leaseId l, s.lease leaseId = some l → l.state ≠ .handoffPending)
    (hhandoffs : ∀ handoffId h, s.handoff handoffId = some h →
      h.state.isTerminal = true) : s.Consistent where
  openPending handoffId h hstored hopen := by
    rw [hhandoffs handoffId h hstored] at hopen
    cases hopen
  pendingOpen leaseId l hstored hpending :=
    absurd hpending (hleases leaseId l hstored)

variable {s : Ledger}

private theorem consistent_begin (hs : s.Consistent) {l : LeaseRecord}
    {h : HandoffRecord} (hlease : s.lease h.leaseId = some l)
    (hactive : l.state = .active) (hfresh : s.handoff h.handoffId = none)
    (hprepare : h.state = .targetPrepare) (hepoch : h.expectedEpoch = l.epoch) :
    (s.begin h).Consistent where
  openPending handoffId g hstored hopen := by
    rcases assign_eq_some.mp hstored with ⟨rfl, rfl⟩ | ⟨hne, hstored⟩
    · exact ⟨_, alterAt_self hlease, rfl, rfl, hepoch.symm⟩
    · obtain ⟨k, hk, hpending, hnamed, hk_epoch⟩ := hs.openPending handoffId g hstored hopen
      have hother : g.leaseId ≠ h.leaseId := by
        intro heq
        rw [heq, hlease] at hk
        cases hk
        rw [hactive] at hpending
        cases hpending
      exact ⟨k, (alterAt_of_ne hother).trans hk, hpending, hnamed, hk_epoch⟩
  pendingOpen leaseId k hk hpending := by
    rcases alterAt_eq_some.mp hk with ⟨rfl, w, -, rfl⟩ | ⟨hne, hk⟩
    · exact ⟨h.handoffId, h, rfl, assign_self, rfl, by rw [hprepare]; rfl⟩
    · obtain ⟨handoffId, g, hnamed, hstored, hlid, hopen⟩ :=
        hs.pendingOpen leaseId k hk hpending
      have hother : handoffId ≠ h.handoffId := by
        rintro rfl
        rw [hfresh] at hstored
        cases hstored
      exact ⟨handoffId, g, hnamed, (assign_of_ne hother).trans hstored, hlid, hopen⟩

private theorem consistent_mark (hs : s.Consistent) {h : HandoffRecord}
    {next : HandoffState} (hstored : s.handoff h.handoffId = some h)
    (hopen : h.state.isTerminal = false) (hnext : next.isTerminal = false) :
    (s.mark h next).Consistent where
  openPending handoffId g hg hgopen := by
    rcases assign_eq_some.mp hg with ⟨rfl, rfl⟩ | ⟨hne, hg⟩
    · exact hs.openPending h.handoffId h hstored hopen
    · exact hs.openPending handoffId g hg hgopen
  pendingOpen leaseId l hl hpending := by
    obtain ⟨handoffId, g, hnamed, hg, hlid, hgopen⟩ := hs.pendingOpen leaseId l hl hpending
    by_cases heq : handoffId = h.handoffId
    · subst heq
      cases hstored.symm.trans hg
      exact ⟨h.handoffId, _, hnamed, assign_self, hlid, hnext⟩
    · exact ⟨handoffId, g, hnamed, (assign_of_ne heq).trans hg, hlid, hgopen⟩

/-- Closing the handoff a lease names keeps the ledger consistent, as long as the
lease does not stay pending and the other leases are left alone. -/
private theorem consistent_close (hs : s.Consistent) {h : HandoffRecord}
    {final : HandoffState} {f : LeaseRecord → LeaseRecord}
    (hstored : s.handoff h.handoffId = some h) (hfinal : final.isTerminal = true)
    (hnamed : ∀ l, s.lease h.leaseId = some l → l.handoffId = some h.handoffId →
      (f l).state ≠ .handoffPending)
    (hothers : ∀ l, s.lease h.leaseId = some l → l.handoffId ≠ some h.handoffId →
      f l = l) :
    ({ lease := alterAt s.lease h.leaseId f
       handoff := assign s.handoff h.handoffId { h with state := final } } :
      Ledger).Consistent where
  openPending handoffId g hg hgopen := by
    rcases assign_eq_some.mp hg with ⟨rfl, rfl⟩ | ⟨hne, hg⟩
    · rw [show ({ h with state := final } : HandoffRecord).state = final from rfl, hfinal] at hgopen
      cases hgopen
    · obtain ⟨l, hl, hpending, hlnamed, hepoch⟩ := hs.openPending handoffId g hg hgopen
      by_cases heq : g.leaseId = h.leaseId
      · have hlease : s.lease h.leaseId = some l := heq ▸ hl
        have hsame : f l = l := by
          refine hothers l hlease fun hname => hne ?_
          exact Option.some.inj (hlnamed.symm.trans hname)
        refine ⟨l, ?_, hpending, hlnamed, hepoch⟩
        change alterAt s.lease h.leaseId f g.leaseId = some l
        rw [heq, alterAt_self hlease, hsame]
      · exact ⟨l, (alterAt_of_ne heq).trans hl, hpending, hlnamed, hepoch⟩
  pendingOpen leaseId l hl hpending := by
    rcases alterAt_eq_some.mp hl with ⟨rfl, k, hk, rfl⟩ | ⟨hne, hl⟩
    · by_cases hname : k.handoffId = some h.handoffId
      · exact absurd hpending (hnamed k hk hname)
      · rw [hothers k hk hname] at hpending ⊢
        obtain ⟨handoffId, g, hgnamed, hg, hlid, hgopen⟩ :=
          hs.pendingOpen h.leaseId k hk hpending
        have hother : handoffId ≠ h.handoffId := by
          rintro rfl
          exact hname hgnamed
        exact ⟨handoffId, g, hgnamed, (assign_of_ne hother).trans hg, hlid, hgopen⟩
    · obtain ⟨handoffId, g, hgnamed, hg, hlid, hgopen⟩ :=
        hs.pendingOpen leaseId l hl hpending
      have hother : handoffId ≠ h.handoffId := by
        rintro rfl
        cases hstored.symm.trans hg
        exact hne hlid.symm
      exact ⟨handoffId, g, hgnamed, (assign_of_ne hother).trans hg, hlid, hgopen⟩

/-- A change to a lease that leaves its pending mark, its handoff and its epoch
alone keeps the ledger consistent. -/
private theorem consistent_alterAt (hs : s.Consistent) {leaseId : String}
    {f : LeaseRecord → LeaseRecord} (hf : ∀ l, s.lease leaseId = some l →
      ((f l).state = .handoffPending ↔ l.state = .handoffPending) ∧
        (f l).handoffId = l.handoffId ∧ (f l).epoch = l.epoch) :
    ({ lease := alterAt s.lease leaseId f, handoff := s.handoff } : Ledger).Consistent where
  openPending handoffId h hh hopen := by
    obtain ⟨l, hl, hpending, hnamed, hepoch⟩ := hs.openPending handoffId h hh hopen
    by_cases heq : h.leaseId = leaseId
    · subst heq
      obtain ⟨hstate, hhandoff, hepoch'⟩ := hf l hl
      exact ⟨f l, alterAt_self hl, hstate.mpr hpending, hhandoff.trans hnamed, hepoch'.trans hepoch⟩
    · exact ⟨l, (alterAt_of_ne heq).trans hl, hpending, hnamed, hepoch⟩
  pendingOpen lid l hl hpending := by
    rcases alterAt_eq_some.mp hl with ⟨rfl, k, hk, rfl⟩ | ⟨-, hl⟩
    · obtain ⟨hstate, hhandoff, -⟩ := hf k hk
      rw [hhandoff]
      exact hs.pendingOpen lid k hk (hstate.mp hpending)
    · exact hs.pendingOpen lid l hl hpending

/-- Every step keeps the ledger consistent. -/
theorem Step.consistent {t : Ledger} (hstep : Step s t) (hs : s.Consistent) : t.Consistent := by
  cases hstep with
  | begin l h hlease hactive hfresh hprepare hepoch =>
    exact consistent_begin hs hlease hactive hfresh hprepare hepoch
  | mark h next hstored hopen hnext => exact consistent_mark hs hstored hopen hnext
  | abort h hstored hopen =>
    refine consistent_close hs hstored rfl (fun l _ hname => ?_) fun l _ hname => ?_
    · rw [released, if_pos hname]
      exact LeaseState.noConfusion
    · rw [released, if_neg hname]
  | commit l h epoch hstored hready hlease hnamed hepoch =>
    refine consistent_close hs hstored rfl (fun l _ _ => LeaseState.noConfusion)
      fun k hk hname => ?_
    cases hlease.symm.trans hk
    exact absurd hnamed hname
  | advance leaseId snapshotId =>
    exact consistent_alterAt hs fun l _ => ⟨Iff.rfl, rfl, rfl⟩
  | fork l leaseId hlease hinactive =>
    refine consistent_alterAt hs fun k hk => ⟨?_, rfl, rfl⟩
    cases hlease.symm.trans hk
    rw [hinactive]
    constructor
    · exact LeaseState.noConfusion
    · exact LeaseState.noConfusion

/-! ## Consequences -/

/-- A lease has at most one open handoff. -/
theorem Consistent.open_unique (hs : s.Consistent) {i j : String} {g h : HandoffRecord}
    (hg : s.handoff i = some g) (hh : s.handoff j = some h)
    (hgopen : g.state.isTerminal = false) (hhopen : h.state.isTerminal = false)
    (hlease : g.leaseId = h.leaseId) : i = j := by
  obtain ⟨k, hk, -, hknamed, -⟩ := hs.openPending i g hg hgopen
  obtain ⟨l, hl, -, hlnamed, -⟩ := hs.openPending j h hh hhopen
  rw [hlease, hl] at hk
  cases hk
  exact Option.some.inj (hknamed.symm.trans hlnamed)

/-- A lease is pending exactly when it names an open handoff of its own, begun
at its epoch. -/
theorem Consistent.pending_iff (hs : s.Consistent) {leaseId : String} {l : LeaseRecord}
    (hl : s.lease leaseId = some l) :
    l.state = .handoffPending ↔
      ∃ handoffId h, l.handoffId = some handoffId ∧ s.handoff handoffId = some h ∧
        h.leaseId = leaseId ∧ h.state.isTerminal = false ∧ h.expectedEpoch = l.epoch := by
  constructor
  · intro hpending
    obtain ⟨handoffId, h, hnamed, hh, hlid, hopen⟩ := hs.pendingOpen leaseId l hl hpending
    obtain ⟨k, hk, -, -, hepoch⟩ := hs.openPending handoffId h hh hopen
    rw [hlid, hl] at hk
    cases hk
    exact ⟨handoffId, h, hnamed, hh, hlid, hopen, hepoch.symm⟩
  · rintro ⟨handoffId, h, -, hh, hlid, hopen, -⟩
    obtain ⟨k, hk, hpending, -, -⟩ := hs.openPending handoffId h hh hopen
    rw [hlid, hl] at hk
    cases hk
    exact hpending

/-- A closed handoff is never changed. -/
theorem Step.closed_handoff {t : Ledger} (hstep : Step s t) {i : String}
    {g : HandoffRecord} (hg : s.handoff i = some g) (hclosed : g.state.isTerminal = true) :
    t.handoff i = some g := by
  have hother : ∀ h : HandoffRecord, s.handoff h.handoffId = some h →
      h.state.isTerminal = false → i ≠ h.handoffId := by
    rintro h hh hopen rfl
    cases hg.symm.trans hh
    rw [hclosed] at hopen
    cases hopen
  cases hstep with
  | begin l h hlease hactive hfresh hprepare hepoch =>
    refine (assign_of_ne ?_).trans hg
    rintro rfl
    rw [hfresh] at hg
    cases hg
  | mark h next hstored hopen hnext => exact (assign_of_ne (hother h hstored hopen)).trans hg
  | abort h hstored hopen => exact (assign_of_ne (hother h hstored hopen)).trans hg
  | commit l h epoch hstored hready hlease hnamed hepoch =>
    refine (assign_of_ne (hother h hstored ?_)).trans hg
    rw [hready]
    rfl
  | advance leaseId snapshotId => exact hg
  | fork l leaseId hlease hinactive => exact hg

/-- A handoff is never forgotten. -/
theorem Step.stored_handoff {t : Ledger} (hstep : Step s t) {i : String}
    (hi : (s.handoff i).isSome) : (t.handoff i).isSome := by
  cases hstep with
  | begin l h hlease hactive hfresh hprepare hepoch => exact isSome_assign hi
  | mark h next hstored hopen hnext => exact isSome_assign hi
  | abort h hstored hopen => exact isSome_assign hi
  | commit l h epoch hstored hready hlease hnamed hepoch => exact isSome_assign hi
  | advance leaseId snapshotId => exact hi
  | fork l leaseId hlease hinactive => exact hi

end Ledger

end DevRelay.Storage
