import DevRelay.Config.FailedCalls
import DevRelay.Config.RecoverOpen
import DevRelay.Snapshot.RoundTrip

/-!
# Atomicity of a recovery

The target is overwritten before the last checks are made and the last writes are tried, and
nothing is taken back.  So a recovery is atomic if it is refused before its target is touched, or
nothing fails from there on, or the apply to a repository that was there stops before its checkout.
-/

namespace DevRelay.Config

open DevRelay.Lib DevRelay.Core DevRelay.Git DevRelay.Snapshot

/-! ## What is asked of a recovery -/

/-- The checkout, the branches, the index and the files are the same. -/
structure SameWork (before after : Repository) : Prop where
  head : after.head = before.head
  branches : ∀ name, after.refs.find? (branchRef name) = before.refs.find? (branchRef name)
  index : after.index = before.index
  unmerged : after.unmerged = before.unmerged
  files : after.files = before.files

section Law

variable (env : RecoveryEnv) (params : RecoverOpenParams)

/-- The workspace is in the registry and in its file if that was asked for, and else the registry
is as it was. -/
def RegisteredAsAsked (project : ProjectRegistryEntry) (before after : ConfigState) : Prop :=
  if params.register then
    ∃ root, env.config.showToplevel params.path = some root ∧
      Registered project.projectId
        (workspaceEntry env.config project.projectId before.config.deviceId root) before.config
        after.config ∧
      after.config.IsIn env.config.files after.file
  else after = before

structure RecoveryAtomic (before : RecoveryWorld)
    (outcome : Except RpcError RecoverOpenResult × RecoveryWorld) : Prop where
  /-- a repository that was there keeps its work when the recovery fails -/
  kept : ∀ e repo, outcome.1 = .error e → before.target = .repository repo →
    ∃ after, outcome.2.target = .repository after ∧ SameWork repo after
  /-- where there was none, none is left when the recovery fails -/
  absent : ∀ e, outcome.1 = .error e → before.target.repository? = none →
    outcome.2.target.repository? = none
  registry : ∀ e, outcome.1 = .error e → outcome.2.config = before.config
  done : ∀ result, outcome.1 = .ok result → ∃ project snapshot repo,
    findRecoverySnapshot env before.config.config params.project params.snapshotId =
      .ok (project, snapshot) ∧
    outcome.2.target = .repository repo ∧ Verified env.apply snapshot repo ∧
    RegisteredAsAsked env params project before.config outcome.2.config

/-! ## When it holds -/

/-- The audit event is written, and the registration that was asked for goes through. -/
structure Finishes (project : ProjectRegistryEntry) (config : LocalConfig) : Prop where
  recorded : env.recordApplied = .ok ()
  registers : params.register = true → ∃ workspace after,
    registerRecoveryWorkspace env.config config ⟨project.projectId, params.path⟩ =
      .ok (workspace, after) ∧
    after.CanBeSaved env.config.files ∧
    env.config.publishWorkspaceStateChanged workspace = .ok ()

/-- The snapshot is of a repository whose branch and names are read as they are meant, and the
target, with nothing in the way, finds again what was captured of it. -/
structure FindsRecorded (apply : ApplyEnv) (snapshot : SnapshotMetadata) (repo : Repository)
    (capture : CaptureEnv) (manifest : Manifest) (origin : Repository)
    (classified : List ClassifiedPath) : Prop where
  alike : apply.alike capture = apply
  accepts : Accepts capture manifest origin classified
  records : Records capture origin classified snapshot
  reads : ReadsAsMeant capture manifest origin repo (includedPaths classified)
  vacant : NothingInTheWay capture origin repo (includedPaths classified) snapshot.excluded
  finds : FindsAgain capture manifest origin repo (includedPaths classified)
    (excludedPaths classified)

/-- No command of the apply fails, its checks pass, and the target finds again what the snapshot
has recorded. -/
structure RunsThrough (apply : ApplyEnv) (source : Repository) (snapshot : SnapshotMetadata)
    (repo : Repository) : Prop where
  commandsRun : apply.fault = noFault
  checks : ∃ commits, ChecksPass apply source snapshot repo commits
  recorded : ∃ capture manifest origin classified,
    FindsRecorded apply snapshot repo capture manifest origin classified

/-- The recovery goes through, or the apply stops before its checkout. -/
def GoesThroughOrStops (project : ProjectRegistryEntry) (snapshot : SnapshotMetadata)
    (repo : Repository) (config : LocalConfig) : Prop :=
  RunsThrough env.apply (env.snapshots project.projectId) snapshot repo ∧
      Finishes env params project config ∨
    ¬∃ commits, CheckoutRuns env.apply (env.snapshots project.projectId) snapshot repo commits

/-- A target that is taken is clean and goes through or stops; a new one goes through, or is not
cloned. -/
def RecoversOrStops (world : RecoveryWorld) : Prop :=
  ∀ project snapshot sourcePath,
    findRecoverySnapshot env world.config.config params.project params.snapshotId =
      .ok (project, snapshot) →
    recoverySourcePath env project = .ok sourcePath →
      match world.target with
      | .repository repo => env.status = .ok () →
          (gitStatus env.apply.objects repo).isClean = true →
            GoesThroughOrStops env params project snapshot repo world.config.config
      | .occupied => True
      | target => (target = .empty → env.readDir = .ok ()) → env.createDir = .ok () →
          match env.clone sourcePath with
          | .error _ => env.failedClone.repository? = none
          | .ok cloned =>
            RunsThrough env.apply (env.snapshots project.projectId) snapshot cloned ∧
              Finishes env params project world.config.config

end Law

section

variable {env : RecoveryEnv} {params : RecoverOpenParams} {project : ProjectRegistryEntry}
  {config : ConfigState}

/-! ## The end of a recovery -/

theorem finishRecovery_of_finishes (h : Finishes env params project config.config) :
    ∃ registered, (finishRecovery env params project config).1 = .ok registered ∧
      RegisteredAsAsked env params project config
        (finishRecovery env params project config).2 := by
  rw [finishRecovery, h.recorded, RegisteredAsAsked]
  dsimp only
  cases hregister : params.register with
  | false => exact ⟨none, rfl, rfl⟩
  | true =>
    rw [if_pos rfl, if_pos rfl]
    obtain ⟨workspace, after, hregistered, hsaved, hpublished⟩ := h.registers hregister
    obtain ⟨written, hwritten, hin⟩ := saveChanged_of_canBeSaved config.file hsaved
    obtain ⟨root, hroot, hlisted⟩ := registered_of_register hregistered
    rw [registerRecovered, hregistered]
    dsimp only
    rw [hwritten]
    dsimp only
    rw [hpublished]
    exact ⟨_, rfl, root, hroot, hlisted, hin⟩

/-! ## From the apply on -/

variable {snapshot : SnapshotMetadata} {repo : Repository}

theorem target_of_applyRecovery (env : RecoveryEnv) (caller : RecoveryCaller)
    (params : RecoverOpenParams) (project : ProjectRegistryEntry) (snapshot : SnapshotMetadata)
    (repo : Repository) (config : ConfigState) :
    (applyRecovery env caller params project snapshot repo config).2.target = .repository
      (applied env.apply (env.snapshots project.projectId) snapshot repo) := by
  unfold applyRecovery applied
  generalize (applySnapshotInner env.apply (env.snapshots project.projectId) snapshot).exec
    env.apply.fault 0 repo = outcome
  obtain ⟨verified, after⟩ := outcome
  cases verified with
  | error e => cases env.recordFailure <;> rfl
  | ok details => rfl

/-- An apply that runs through returns, and what it leaves is verified. -/
theorem RunsThrough.exec {apply : ApplyEnv} {source : Repository}
    (h : RunsThrough apply source snapshot repo) : ∃ details,
    (applySnapshotInner apply source snapshot).exec apply.fault 0 repo =
      (.ok details, applied apply source snapshot repo) ∧
    Verified apply snapshot (applied apply source snapshot repo) := by
  obtain ⟨capture, manifest, origin, classified, hrecorded⟩ := h.recorded
  obtain ⟨commits, hchecks⟩ := h.checks
  have hverified : Verified (apply.alike capture) snapshot (arrived capture origin snapshot
      (fetched (apply.alike capture) source snapshot commits repo).refs repo) :=
    verified_arrived hrecorded.accepts hrecorded.reads hrecorded.records hrecorded.vacant
      hrecorded.finds
  obtain ⟨details, hdetails⟩ := verifySnapshot_isOk.mpr hverified
  have hexec : (applySnapshotInner (apply.alike capture) source snapshot).exec noFault 0 repo = _ :=
    (run_apply_records hrecorded.records).mpr
      ⟨commits, hrecorded.alike.symm ▸ hchecks, rfl, hdetails⟩
  rw [hrecorded.alike, ← h.commandsRun] at hexec
  rw [hrecorded.alike] at hverified
  refine ⟨details, ?_, ?_⟩
  · rw [applied, hexec]
  · rw [applied, hexec]
    exact hverified

/-- An apply that returns has checked the snapshot out. -/
theorem checkoutRuns_of_exec_ok {apply : ApplyEnv} {source : Repository}
    {details : VerificationDetails} {after : Repository}
    (h : (applySnapshotInner apply source snapshot).exec apply.fault 0 repo =
      (.ok details, after)) : ∃ commits, CheckoutRuns apply source snapshot repo commits := by
  obtain ⟨commits, head, work, index, hchecks, hresolves, -, -⟩ :=
    run_applySnapshotInner_ok.mp (Prog.run_of_exec_ok h)
  obtain ⟨hclean, hlfs, hreparse, hpaths, hmaterial, hindex, hwork⟩ :=
    preflight_eq_ok hchecks.preflight
  have hinjected : apply.injected ≠ some .afterTargetFetch := by
    rw [hchecks.notInjected]
    exact nofun
  unfold applySnapshotInner at h
  obtain ⟨hstatus, h⟩ := Prog.exec_query_bind_ok.mp h
  rw [hchecks.preflight, Prog.ofExcept_ok_bind] at h
  obtain ⟨hfetch, h⟩ := Prog.exec_update_bind_ok.mp h
  rw [Prog.ensure_bind_of_true hchecks.accepted, hchecks.headBlobs, Prog.ofExcept_ok_bind,
    hchecks.indexBlobs, Prog.ofExcept_ok_bind, hchecks.workBlobs, Prog.ofExcept_ok_bind,
    injectApplyFault, Prog.ensure_bind_of_true hinjected] at h
  obtain ⟨hcheckout, -⟩ := Prog.exec_stmt_ok.mp h
  refine ⟨commits, {
    clean := hclean
    indexRef := hindex
    workRef := hwork
    lfsObjects := hlfs
    reparsePoints := hreparse
    pathsSupported := hpaths
    materializationSupported := hmaterial
    accepted := hchecks.accepted
    headBlobs := hchecks.headBlobs
    indexBlobs := hchecks.indexBlobs
    workBlobs := hchecks.workBlobs
    injected := hinjected
    resolves := Option.isSome_iff_exists.mpr ⟨head, hresolves.head⟩
    commandsRun := ?_ }⟩
  intro n hn
  interval_cases n
  · exact hstatus
  · exact hfetch
  · exact hcheckout

/-- A recovery whose apply runs through ends as its finish does. -/
theorem applyRecovery_of_runsThrough (caller : RecoveryCaller) (params : RecoverOpenParams)
    (config : ConfigState)
    (h : RunsThrough env.apply (env.snapshots project.projectId) snapshot repo)
    (hfinishes : Finishes env params project config.config) :
    ∃ result after, (applyRecovery env caller params project snapshot repo config) =
      (.ok result, ⟨.repository after, (finishRecovery env params project config).2⟩) ∧
      Verified env.apply snapshot after ∧
      RegisteredAsAsked env params project config
        (finishRecovery env params project config).2 := by
  obtain ⟨details, hexec, hverified⟩ := h.exec
  obtain ⟨registered, hregistered, hasked⟩ := finishRecovery_of_finishes hfinishes
  refine ⟨⟨snapshot, params.path, params.name, registered, details⟩, _, ?_, hverified, hasked⟩
  rw [applyRecovery, hexec]
  dsimp only
  rw [hregistered]
  rfl

/-- A recovery whose apply stops fails, and keeps the registry. -/
theorem applyRecovery_of_stops (caller : RecoveryCaller) (params : RecoverOpenParams)
    (config : ConfigState) (h : ¬∃ commits,
      CheckoutRuns env.apply (env.snapshots project.projectId) snapshot repo commits) :
    (∃ e, (applyRecovery env caller params project snapshot repo config).1 = .error e) ∧
      (applyRecovery env caller params project snapshot repo config).2.config = config := by
  unfold applyRecovery
  cases hexec : (applySnapshotInner env.apply (env.snapshots project.projectId) snapshot).exec
      env.apply.fault 0 repo with
  | mk verified after =>
    cases verified with
    | ok details => exact absurd (checkoutRuns_of_exec_ok hexec) h
    | error e =>
      dsimp only
      cases env.recordFailure with
      | error audit => exact ⟨⟨_, rfl⟩, rfl⟩
      | ok _ => exact ⟨⟨_, rfl⟩, rfl⟩

end

/-! ## The recovery -/

section

variable {env : RecoveryEnv} {caller : RecoveryCaller} {params : RecoverOpenParams}
  {project : ProjectRegistryEntry} {snapshot : SnapshotMetadata} {repo : Repository}
  {world : RecoveryWorld}

/-- A call that is refused before it has touched anything. -/
theorem recoveryAtomic_refused (e : RpcError) :
    RecoveryAtomic env params world (.error e, world) where
  kept _ repo _ hrepo := ⟨repo, hrepo, rfl, fun _ => rfl, rfl, rfl, rfl⟩
  absent _ _ h := h
  registry _ _ := rfl
  done _ h := nomatch h

/-- An apply that stops before its checkout leaves the work. -/
theorem sameWork_before_checkout (h : ¬∃ commits,
      CheckoutRuns env.apply (env.snapshots project.projectId) snapshot repo commits) :
    SameWork repo (applied env.apply (env.snapshots project.projectId) snapshot repo) := by
  apply applied_before_checkout ⟨rfl, fun _ => rfl, rfl, rfl, rfl⟩ _ h
  intro commits
  have hfetch : ∀ (name oid : String) (target : Repository),
      (∀ branch, branchRef branch ≠ name) →
        SameWork target (target.fetchRef env.apply.objects name oid) := by
    intro name oid target hname
    unfold Repository.fetchRef
    split_ifs
    · refine ⟨rfl, ?_, rfl, rfl, rfl⟩
      intro branch
      exact SortedMap.find?_insert_of_ne (hname branch)
    · exact ⟨rfl, fun _ => rfl, rfl, rfl, rfl⟩
  have hindex := hfetch snapshot.indexRef commits.1 repo fun branch =>
    branchRef_ne_indexRef branch snapshot
  have hwork := hfetch snapshot.workRef commits.2
    (repo.fetchRef env.apply.objects snapshot.indexRef commits.1) fun branch =>
      branchRef_ne_workRef branch snapshot
  refine ⟨hwork.head.trans hindex.head, fun name => ?_,
    hwork.index.trans hindex.index, hwork.unmerged.trans hindex.unmerged,
    hwork.files.trans hindex.files⟩
  -- the tags that come along are not branches
  have hnone : ((env.snapshots project.projectId).refs.find? (branchRef name)).bind
      (fun oid => if followsTag env.apply repo (branchRef name) oid then some oid else none) =
        none := by
    rw [Option.bind_eq_none_iff]
    intro oid _
    refine if_neg fun hfollows => ?_
    exact ne_of_followsTag hfollows ((not_isTagRef snapshot).1 name) rfl
  rw [fetched, fetchSnapshotRefs, SortedMap.find?_covering, SortedMap.find?_filterMap, hnone,
    Option.or_none]
  exact (hwork.branches name).trans (hindex.branches name)

/-- A recovery that goes through. -/
theorem recoveryAtomic_through (hfind : findRecoverySnapshot env world.config.config
      params.project params.snapshotId = .ok (project, snapshot))
    (h : RunsThrough env.apply (env.snapshots project.projectId) snapshot repo)
    (hfinishes : Finishes env params project world.config.config) :
    RecoveryAtomic env params world
      (applyRecovery env caller params project snapshot repo world.config) := by
  obtain ⟨result, after, hresult, hverified, hasked⟩ :=
    applyRecovery_of_runsThrough caller params world.config h hfinishes
  rw [hresult]
  constructor
  · intro _ _ herror
    cases herror
  · intro _ herror
    cases herror
  · intro _ herror
    cases herror
  · exact fun _ _ => ⟨project, snapshot, after, hfind, rfl, hverified, hasked⟩

/-- A recovery into a repository that was there, whose apply stops. -/
theorem recoveryAtomic_stopped (htarget : world.target = .repository repo) (h : ¬∃ commits,
      CheckoutRuns env.apply (env.snapshots project.projectId) snapshot repo commits) :
    RecoveryAtomic env params world
      (applyRecovery env caller params project snapshot repo world.config) := by
  obtain ⟨⟨e, herror⟩, hconfig⟩ := applyRecovery_of_stops caller params world.config h
  constructor
  · intro _ other _ hother
    rw [htarget] at hother
    cases hother
    exact ⟨_, target_of_applyRecovery .., sameWork_before_checkout h⟩
  · intro _ _ hnone
    rw [htarget] at hnone
    cases hnone
  · exact fun _ _ => hconfig
  · intro _ hok
    rw [herror] at hok
    cases hok

/-- A recovery into a target without a repository. -/
theorem recoveryAtomic_new {sourcePath : String} (hfind : findRecoverySnapshot env
      world.config.config params.project params.snapshotId = .ok (project, snapshot))
    (htarget : world.target.repository? = none) (h : env.createDir = .ok () →
      match env.clone sourcePath with
      | .error _ => env.failedClone.repository? = none
      | .ok cloned => RunsThrough env.apply (env.snapshots project.projectId) snapshot cloned ∧
          Finishes env params project world.config.config) :
    RecoveryAtomic env params world
      (match cloneRecoveryWorkspace env sourcePath world.target with
      | (.error e, target) => (.error (caller.refused e), { world with target })
      | (.ok repo, _) => applyRecovery env caller params project snapshot repo world.config) := by
  rw [cloneRecoveryWorkspace]
  cases hdir : env.createDir with
  | error e => exact recoveryAtomic_refused _
  | ok _ =>
    have hclone := h hdir
    cases hcloned : env.clone sourcePath with
    | error e =>
      rw [hcloned] at hclone
      constructor
      · intro _ repo _ hrepo
        rw [hrepo] at htarget
        cases htarget
      · exact fun _ _ _ => hclone
      · exact fun _ _ => rfl
      · intro _ hok
        cases hok
    | ok cloned =>
      rw [hcloned] at hclone
      exact recoveryAtomic_through hfind hclone.1 hclone.2

end

def recoveredProject : ProjectRegistryEntry where
  projectId := "p_demo"
  displayName := "demo"
  localPath := "/work/demo"
  workspaces := .empty
  manifestPath := none

/-- Every step succeeds. -/
noncomputable def notesEnv : RecoveryEnv where
  config := { demoConfigEnv with pathExists := fun _ => true }
  apply := quietEnv numberedObjects globPaths zeroDigest
  snapshots _ := notesAnchor numberedObjects
  openStore _ := .ok ()
  getSnapshot _ _ := .ok (notesMetadata numberedObjects)
  status := .ok ()
  readDir := .ok ()
  createDir := .ok ()
  clone _ := .ok (cacheTarget numberedObjects)
  failedClone := .empty
  recordApplied := .ok ()
  recordFailure := .ok ()

def intoNewDirectory : RecoverOpenParams :=
  ⟨"s1_0123456789abcdef01234567", "/work/recovered", none, true, none⟩

def absentTarget : RecoveryWorld :=
  ⟨.absent, ⟨{ defaultConfig with projects := .singleton "p_demo" recoveredProject }, none⟩⟩

theorem runsThrough_notes : RunsThrough notesEnv.apply (notesAnchor numberedObjects)
    (notesMetadata numberedObjects) (cacheTarget numberedObjects) where
  commandsRun := rfl
  checks :=
    ⟨_, checksPass_quiet _ (clean_at_root rfl rfl rfl rfl) rfl globPaths zeroDigest⟩
  recorded := ⟨plainCapture numberedObjects, plainManifest, notesSource numberedObjects,
    notesClassified, {
      alike := rfl
      accepts := notesSource_accepted
      records := records_capturedMetadata notesSource_accepted
      reads := readsAsMeant_notes
      vacant := nothingInTheWay_notes
      finds := findsAgain_notes }⟩

noncomputable def lfsEnv : RecoveryEnv :=
  { notesEnv with
    apply := { quietEnv numberedObjects globPaths zeroDigest with
      lfsObjects := fun _ => .error (.missingSourceObject "missing Git LFS objects: data.bin") } }

theorem missingObject_stops (repo : Repository) : ¬∃ commits, CheckoutRuns lfsEnv.apply
    (lfsEnv.snapshots recoveredProject.projectId) (notesMetadata numberedObjects) repo commits := by
  rintro ⟨commits, hruns⟩
  cases hruns.lfsObjects

end DevRelay.Config
