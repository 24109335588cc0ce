import DevRelay.Storage.Effects

/-!
# The lease and handoff invariant of every run

From a store in which no handoff is pending, any list of calls keeps the leases
and the handoffs in step with each other.  The proof is the one of the ledger,
carried over by `step_ledger`.
-/

namespace DevRelay.Storage

open DevRelay.Lib DevRelay.Core

/-- No handoff is pending. -/
structure MetadataDb.Settled (db : MetadataDb) : Prop where
  leases : ∀ leaseId l, db.getLease leaseId = some l → l.state ≠ .handoffPending
  handoffs : ∀ handoffId h, db.getHandoff handoffId = some h → h.state.isTerminal = true

theorem step_consistent (db : MetadataDb) (call : Call) (h : db.ledger.Consistent) :
    (step db call).ledger.Consistent := by
  rcases step_ledger db call with heq | hstep
  · rw [heq]
    exact h
  · exact hstep.consistent h

theorem storeAt_consistent {db : MetadataDb} (hsettled : db.Settled)
    (calls : List Call) (n : Nat) : (storeAt db calls n).ledger.Consistent :=
  stateAt_invariant (I := fun db : MetadataDb => db.ledger.Consistent)
    (Ledger.consistent_of_closed hsettled.leases hsettled.handoffs) step_consistent n

theorem step_closed_handoff {handoffId : String} {h : HandoffRecord}
    (hclosed : h.state.isTerminal = true) (db : MetadataDb) (call : Call)
    (hstored : db.getHandoff handoffId = some h) :
    (step db call).getHandoff handoffId = some h := by
  rcases step_ledger db call with heq | hstep
  · exact (congrFun (congrArg Ledger.handoff heq) handoffId).trans hstored
  · exact hstep.closed_handoff hstored hclosed

/-- The call has committed the handoff and handed its lease over, and only the read of
the record afterwards failed. -/
structure CommittedUnread (db : MetadataDb) (call : Call) (e : DevRelayError)
    (h : HandoffRecord) : Prop where
  unread : call.reread = some e
  admitted : ∃ observed now, call.op.commitArgs = some (h.handoffId, observed, now) ∧
    CommitAdmitted db h observed now
  committed : (step db call).getHandoff h.handoffId = some { h with state := .committed }
  handedOver : ∃ l, (step db call).getLease h.leaseId = some l ∧ l.state = .active ∧
    l.holderDeviceId = some h.targetDeviceId ∧ l.handoffId = none

/-- A call that returns an error has not touched the leases or the handoffs,
unless the error is one of the two commit rejections, or the read after a commit
failed. -/
theorem perform_error {db : MetadataDb} {call : Call} {e : DevRelayError}
    (herror : (perform db call).1 = .error e) (hexpired : e ≠ commitRejected "handoff expired")
    (hgeneration : e ≠ commitRejected "source generation changed") :
    ((step db call).leases = db.leases ∧ (step db call).handoffs = db.handoffs) ∨
      ∃ h, CommittedUnread db call e h := by
  have heffect := perform_effect db call
  rw [herror] at heffect
  cases heffect with
  | quiet hleases hhandoffs _ => exact Or.inl ⟨hleases, hhandoffs⟩
  | aborted h _ _ hreply _ _ =>
    rcases hreply with hok | hreply | hreply
    · cases hok
    · exact absurd (Except.error.inj hreply) hexpired
    · exact absurd (Except.error.inj hreply) hgeneration
  | committed h l observed now hop hadmitted hlease _ _ hreply hledger _ =>
    right
    have hledger' : (step db call).ledger = _ := hledger
    have hunread : call.reread = some e := by
      cases hreread : call.reread with
      | none =>
        rw [hreread] at hreply
        cases hreply
      | some e' =>
        rw [hreread] at hreply
        cases hreply
        rfl
    refine ⟨h, hunread, ⟨observed, now, hop, hadmitted⟩, ?_, ?_⟩
    · exact (congrFun (congrArg Ledger.handoff hledger') h.handoffId).trans assign_self
    · exact ⟨_, (congrFun (congrArg Ledger.lease hledger') h.leaseId).trans
        (alterAt_eq_some.mpr (Or.inl ⟨rfl, l, hlease, rfl⟩)), rfl, rfl, rfl⟩
  | stored request l _ _ _ hleases hhandoffs _ => exact Or.inl ⟨hleases, hhandoffs⟩

/-- In every run from a store with no pending handoff: a lease has at most one
open handoff; a lease is pending exactly when it names an open handoff of its own
whose expected epoch is the epoch of the lease; a closed handoff stays as it is;
and a call that fails leaves leases and handoffs alone, unless it is the commit
that aborted an expired or changed handoff, or a commit that went through and whose
record could not be read again. -/
theorem handoff_lease_invariant (db : MetadataDb) (calls : List Call) (hsettled : db.Settled) :
    (∀ n i j g h, (storeAt db calls n).getHandoff i = some g →
      (storeAt db calls n).getHandoff j = some h → g.state.isTerminal = false →
      h.state.isTerminal = false → g.leaseId = h.leaseId → i = j) ∧
    (∀ n leaseId l, (storeAt db calls n).getLease leaseId = some l →
      (l.state = .handoffPending ↔
        ∃ handoffId h, l.handoffId = some handoffId ∧
          (storeAt db calls n).getHandoff handoffId = some h ∧ h.leaseId = leaseId ∧
          h.state.isTerminal = false ∧ h.expectedEpoch = l.epoch)) ∧
    (∀ m n handoffId h, m ≤ n → (storeAt db calls m).getHandoff handoffId = some h →
      h.state.isTerminal = true →
      (storeAt db calls n).getHandoff handoffId = some h) ∧
    (∀ n (hn : n < calls.length) e, (perform (storeAt db calls n) calls[n]).1 = .error e →
      e ≠ commitRejected "handoff expired" →
      e ≠ commitRejected "source generation changed" →
      ((storeAt db calls (n + 1)).leases = (storeAt db calls n).leases ∧
        (storeAt db calls (n + 1)).handoffs = (storeAt db calls n).handoffs) ∨
        ∃ h, CommittedUnread (storeAt db calls n) calls[n] e h) := by
  refine ⟨?_, ?_, ?_, ?_⟩
  · intro n i j g h hg hh hgopen hhopen hlease
    exact (storeAt_consistent hsettled calls n).open_unique hg hh hgopen hhopen hlease
  · intro n leaseId l hl
    exact (storeAt_consistent hsettled calls n).pending_iff hl
  · intro m n handoffId h hmn hstored hclosed
    exact stateAt_stable (P := fun db : MetadataDb => db.getHandoff handoffId = some h)
      (step_closed_handoff hclosed) hmn hstored
  · intro n hn e herror hexpired hgeneration
    rw [storeAt_succ hn]
    exact perform_error herror hexpired hgeneration

/-! ## A run -/

/-- One project with one active lease, held by the first device. -/
def demoStore : MetadataDb where
  projects := ⟨["project-1"], List.nodup_singleton "project-1"⟩
  sessions := ⟨[{
    sessionId := "session-1"
    projectId := "project-1"
    activeWorkspaceId := none
    state := "active"
    name := some "main"
    parentSessionId := none
    archivedAtUnixSeconds := none
    createdAtUnixSeconds := 10
    updatedAtUnixSeconds := 10 }], by decide⟩
  snapshots := .empty
  leases := ⟨[{
    leaseId := "lease-1"
    projectId := "project-1"
    sessionId := some "session-1"
    state := "active"
    epoch := 7
    holderDeviceId := some "device-a"
    latestSnapshotId := none
    handoffId := none }], by decide⟩
  handoffs := .empty
  handoffJournal := []
  deviceRevocations := .empty
  auditEvents := []

def demoEnv (now : UInt64) : Env where
  unixNowSeconds := now
  generatedHandoffId := "ho_1"
  generatedSessionId := "se_1"
  json := ⟨.ok, fun reason => "\x7b\"reason\":\"" ++ reason ++ "\"\x7d"⟩
  fault := noFault
  readFault := none
  injected := none

/-- A handoff from the first device to the second, up to the commit. -/
def demoHandoff : List Call := [
  ⟨demoEnv 100, .beginHandoff "lease-1" "device-a" "device-b" "gen-1" 60, none⟩,
  ⟨demoEnv 110, .recordHandoffTargetApply "ho_1" none, none⟩,
  ⟨demoEnv 120, .markHandoffTargetVerified "ho_1", none⟩,
  ⟨demoEnv 130, .markHandoffSourceReady "ho_1", none⟩,
  ⟨demoEnv 140, .commitHandoff "ho_1" "gen-1" 140, none⟩]

/-- The same run, where the record cannot be read again after the commit. -/
def unreadHandoff : List Call :=
  demoHandoff.take 4 ++
    [⟨demoEnv 140, .commitHandoff "ho_1" "gen-1" 140, some (.sqlite "disk I/O error")⟩]

theorem demoStore_settled : demoStore.Settled where
  leases leaseId l hl := by
    have hrows : ∀ row ∈ demoStore.leases.rows,
        (leaseRecordFromRow row).state ≠ .handoffPending := by decide
    obtain ⟨row, hrow, rfl⟩ := Option.map_eq_some_iff.mp hl
    exact hrows row (Table.mem_of_lookup hrow)
  handoffs handoffId h hh := by
    cases hh

/-- The commit returns the error of the read, and the handoff is committed. -/
theorem failed_commit_hands_over :
    ¬∀ (db : MetadataDb) (calls : List Call), db.Settled →
      ∀ n (hn : n < calls.length) e, (perform (storeAt db calls n) calls[n]).1 = .error e →
        e ≠ commitRejected "handoff expired" →
        e ≠ commitRejected "source generation changed" →
        (storeAt db calls (n + 1)).leases = (storeAt db calls n).leases ∧
          (storeAt db calls (n + 1)).handoffs = (storeAt db calls n).handoffs := by
  intro h
  have hsame := (h demoStore unreadHandoff demoStore_settled 4 (by decide)
    (.sqlite "disk I/O error") (by decide) (by decide) (by decide)).1
  have hholder : ((storeAt demoStore unreadHandoff 5).leases.rows.map LeaseRow.holderDeviceId) =
      (storeAt demoStore unreadHandoff 4).leases.rows.map LeaseRow.holderDeviceId := by
    rw [hsame]
  exact absurd hholder (by decide)

/-- The invariant at work: the lease is pending after the begin, and its handoff
is open. -/
theorem handoff_lease_invariant_demo :
    (storeAt demoStore demoHandoff 1).getLease "lease-1" = some {
      leaseId := "lease-1"
      projectId := "project-1"
      sessionId := "session-1"
      state := .handoffPending
      epoch := 7
      holderDeviceId := some "device-a"
      latestSnapshotId := none
      handoffId := some "ho_1" } ∧
    ∃ handoffId h, some "ho_1" = some handoffId ∧
      (storeAt demoStore demoHandoff 1).getHandoff handoffId = some h ∧
      h.leaseId = "lease-1" ∧ h.state.isTerminal = false ∧ h.expectedEpoch = 7 :=
  have hlease : (storeAt demoStore demoHandoff 1).getLease "lease-1" = some {
      leaseId := "lease-1"
      projectId := "project-1"
      sessionId := "session-1"
      state := .handoffPending
      epoch := 7
      holderDeviceId := some "device-a"
      latestSnapshotId := none
      handoffId := some "ho_1" } := by decide
  ⟨hlease, ((handoff_lease_invariant demoStore demoHandoff demoStore_settled).2.1
    1 "lease-1" _ hlease).mp rfl⟩

end DevRelay.Storage
