import DevRelay.Snapshot.Apply
import Mathlib.Tactic.IntervalCases

/-!
# The commits of an apply target

An apply checks the commit of the snapshot out over the branch of the same
name, and it does so whatever that branch holds.  The commits that the moved
branch, or a detached checkout, alone led to are lost; every other one is kept.
-/

namespace DevRelay.Snapshot

open DevRelay.Core DevRelay.Git DevRelay.Lib

def isBranchRef (name : String) : Bool := "refs/heads/".toList.isPrefixOf name.toList

/-- A branch or the checkout leads to the commit. -/
def HoldsCommit (objects : GitObjects) (repo : Repository) (commit : String) : Prop :=
  (∃ name tip, isBranchRef name = true ∧ repo.refs.find? name = some tip ∧
    objects.Reaches tip commit) ∨
  ∃ tip, repo.headOid = some tip ∧ objects.Reaches tip commit

/-- Some reference, or the checkout, leads to the commit. -/
def RefersTo (objects : GitObjects) (repo : Repository) (commit : String) : Prop :=
  (∃ name tip, repo.refs.find? name = some tip ∧ objects.Reaches tip commit) ∨
  ∃ tip, repo.headOid = some tip ∧ objects.Reaches tip commit

def LosesNoCommit (objects : GitObjects) (before after : Repository) : Prop :=
  ∀ commit, HoldsCommit objects before commit → RefersTo objects after commit

/-- The target when the apply is over or has stopped. -/
def applied (env : ApplyEnv) (source : Repository) (snapshot : SnapshotMetadata)
    (target : Repository) : Repository :=
  ((applySnapshotInner env source snapshot).exec env.fault 0 target).2

/-! ## The condition -/

/-- Nothing stops the apply before its checkout has taken place. -/
structure CheckoutRuns (env : ApplyEnv) (source : Repository) (snapshot : SnapshotMetadata)
    (target : Repository) (commits : String × String) : Prop where
  clean : (gitStatus env.objects target).isClean = true
  indexRef : source.refs.find? snapshot.indexRef = some commits.1
  workRef : source.refs.find? snapshot.workRef = some commits.2
  lfsObjects : env.lfsObjects snapshot = .ok ()
  reparsePoints : env.reparsePoints = .ok ()
  pathsSupported : env.pathsSupported snapshot = .ok ()
  materializationSupported : env.materializationSupported snapshot = .ok ()
  accepted : fetchAccepted env.objects snapshot commits target = true
  headBlobs : env.missingBlobs snapshot.headOid = .ok ()
  indexBlobs : env.missingBlobs snapshot.indexTreeOid = .ok ()
  workBlobs : env.missingBlobs snapshot.workTreeOid = .ok ()
  injected : env.injected ≠ some .afterTargetFetch
  resolves : (env.objects.commitOf snapshot.headOid).isSome
  commandsRun : ∀ n, n < 3 → env.fault n = none

/-- The commits that a checkout of the snapshot takes a reference away from: the
tip of the branch of the same name, and the commit of a detached checkout. -/
def MovedTip (target : Repository) (snapshot : SnapshotMetadata) (tip : String) : Prop :=
  (∃ branch, snapshot.branch = some branch ∧
    target.refs.find? (branchRef branch) = some tip) ∨
  target.head = .detached tip

/-- The commit that is checked out, a commit that is fetched, a reference of the target
other than the branch of the snapshot, or a tag that the fetch follows leads to `tip`. -/
def KeptElsewhere (env : ApplyEnv) (source : Repository) (snapshot : SnapshotMetadata)
    (target : Repository) (commits : String × String) (tip : String) : Prop :=
  env.objects.Reaches snapshot.headOid tip ∨
  env.objects.Reaches commits.1 tip ∨
  env.objects.Reaches commits.2 tip ∨
  (∃ name oid, (∀ branch, snapshot.branch = some branch → name ≠ branchRef branch) ∧
    target.refs.find? name = some oid ∧ env.objects.Reaches oid tip) ∨
  ∃ name oid, source.refs.find? name = some oid ∧ followsTag env target name oid = true ∧
    env.objects.Reaches oid tip

/-! ## Names of references -/

theorem branchRef_isBranchRef (name : String) : isBranchRef (branchRef name) = true := by
  unfold isBranchRef branchRef
  rw [String.toList_append, List.isPrefixOf_iff_prefix]
  exact List.prefix_append _ _

theorem not_isBranchRef_indexRef (snapshot : SnapshotMetadata) :
    isBranchRef snapshot.indexRef = false := by
  unfold isBranchRef SnapshotMetadata.indexRef
  rw [String.toList_append, String.toList_append, List.append_assoc]
  rfl

theorem not_isBranchRef_workRef (snapshot : SnapshotMetadata) :
    isBranchRef snapshot.workRef = false := by
  unfold isBranchRef SnapshotMetadata.workRef
  rw [String.toList_append, String.toList_append, List.append_assoc]
  rfl

theorem branchRef_ne_indexRef (name : String) (snapshot : SnapshotMetadata) :
    branchRef name ≠ snapshot.indexRef := by
  intro h
  have hbranch := branchRef_isBranchRef name
  rw [h, not_isBranchRef_indexRef] at hbranch
  cases hbranch

theorem branchRef_ne_workRef (name : String) (snapshot : SnapshotMetadata) :
    branchRef name ≠ snapshot.workRef := by
  intro h
  have hbranch := branchRef_isBranchRef name
  rw [h, not_isBranchRef_workRef] at hbranch
  cases hbranch

/-- No branch and no reference of a snapshot is a tag. -/
theorem not_isTagRef (snapshot : SnapshotMetadata) :
    (∀ branch, isTagRef (branchRef branch) = false) ∧ isTagRef snapshot.indexRef = false ∧
      isTagRef snapshot.workRef = false := by
  unfold isTagRef branchRef SnapshotMetadata.indexRef SnapshotMetadata.workRef
  simp only [String.toList_append, List.append_assoc]
  exact ⟨fun _ => rfl, rfl, rfl⟩

theorem ne_of_followsTag {env : ApplyEnv} {target : Repository} {name other oid : String}
    (h : followsTag env target name oid = true) (hother : isTagRef other = false) :
    name ≠ other := by
  rintro rfl
  rw [followsTag, hother] at h
  cases h

/-! ## The fetch -/

section

variable {objects : GitObjects} {repo : Repository} {name oid : String}

theorem fetchRef_of_accepted (h : repo.acceptsRef objects name oid = true) :
    repo.fetchRef objects name oid = { repo with refs := repo.refs.insert name oid } := by
  rw [Repository.fetchRef, if_pos h]

/-- The checkout is the same, and every reference leads to the commit it was at. -/
def Advanced (objects : GitObjects) (before after : Repository) : Prop :=
  after.head = before.head ∧ ∀ name oid, before.refs.find? name = some oid →
    ∃ oid', after.refs.find? name = some oid' ∧ objects.Reaches oid' oid

theorem Advanced.refl (objects : GitObjects) (repo : Repository) : Advanced objects repo repo :=
  ⟨rfl, fun _ oid h => ⟨oid, h, Relation.ReflTransGen.refl⟩⟩

theorem Advanced.trans {r s t : Repository} (hrs : Advanced objects r s)
    (hst : Advanced objects s t) : Advanced objects r t := by
  refine ⟨hst.1.trans hrs.1, ?_⟩
  intro name oid h
  obtain ⟨oid', h', hreaches⟩ := hrs.2 name oid h
  obtain ⟨oid'', h'', hreaches'⟩ := hst.2 name oid' h'
  exact ⟨oid'', h'', hreaches'.trans hreaches⟩

/-- A fetch only replaces a reference by a commit that leads to the old one. -/
theorem advanced_fetchRef (objects : GitObjects) (name oid : String) (repo : Repository) :
    Advanced objects repo (repo.fetchRef objects name oid) := by
  by_cases haccepts : repo.acceptsRef objects name oid = true
  · rw [fetchRef_of_accepted haccepts]
    refine ⟨rfl, ?_⟩
    intro other old hold
    by_cases hname : other = name
    · refine ⟨oid, ?_, ?_⟩
      · rw [hname]
        exact SortedMap.find?_insert_self ..
      · rw [Repository.acceptsRef, ← hname, hold] at haccepts
        rcases Bool.or_eq_true_iff.mp haccepts with hsame | hancestor
        · rw [of_decide_eq_true hsame]
          exact Relation.ReflTransGen.refl
        · exact objects.reaches_of_isAncestor _ _ hancestor
    · refine ⟨old, ?_, Relation.ReflTransGen.refl⟩
      rw [← hold]
      exact SortedMap.find?_insert_of_ne hname
  · rw [Repository.fetchRef, if_neg haccepts]
    exact Advanced.refl objects repo

theorem headOid_of_advanced {before after : Repository} {tip : String}
    (h : Advanced objects before after) (htip : before.headOid = some tip) :
    ∃ tip', after.headOid = some tip' ∧ objects.Reaches tip' tip := by
  unfold Repository.headOid at htip ⊢
  rw [h.1]
  cases hhead : before.head with
  | branch name =>
    rw [hhead] at htip
    exact h.2 _ _ htip
  | detached oid =>
    rw [hhead] at htip
    exact ⟨tip, htip, Relation.ReflTransGen.refl⟩

theorem losesNoCommit_of_advanced {before after : Repository}
    (h : Advanced objects before after) : LosesNoCommit objects before after := by
  intro commit hholds
  rcases hholds with ⟨name, tip, -, htip, hreaches⟩ | ⟨tip, htip, hreaches⟩
  · obtain ⟨tip', htip', hreaches'⟩ := h.2 name tip htip
    exact Or.inl ⟨name, tip', htip', hreaches'.trans hreaches⟩
  · obtain ⟨tip', htip', hreaches'⟩ := headOid_of_advanced h htip
    exact Or.inr ⟨tip', htip', hreaches'.trans hreaches⟩

end

/-! ## Up to the checkout -/

section

variable {env : ApplyEnv} {source target : Repository} {snapshot : SnapshotMetadata}
  {commits : String × String}

theorem ensureSourceSnapshotRef_eq_ok {gitRef oid : String} :
    ensureSourceSnapshotRef source gitRef = .ok oid ↔ source.refs.find? gitRef = some oid := by
  unfold ensureSourceSnapshotRef
  cases source.refs.find? gitRef with
  | none => simp
  | some found => simp

theorem ensureSourceSnapshotRefs_eq_ok :
    ensureSourceSnapshotRefs source snapshot = .ok commits ↔
      source.refs.find? snapshot.indexRef = some commits.1 ∧
        source.refs.find? snapshot.workRef = some commits.2 := by
  unfold ensureSourceSnapshotRefs
  simp only [bind_eq_ok_iff, ensureSourceSnapshotRef_eq_ok]
  constructor
  · rintro ⟨index, hindex, work, hwork, hpair⟩
    cases hpair
    exact ⟨hindex, hwork⟩
  · rintro ⟨hindex, hwork⟩
    exact ⟨_, hindex, _, hwork, rfl⟩

theorem planApplySnapshot_eq_ok {objects : GitObjects} {plan : ApplyPlan}
    (h : planApplySnapshot objects target source snapshot = .ok plan) :
    (gitStatus objects target).isClean = true := by
  unfold planApplySnapshot at h
  by_contra hdirty
  rw [Bool.not_eq_true] at hdirty
  simp only [hdirty] at h
  cases h

theorem preflight_eq_ok (h : preflight env source snapshot target = .ok commits) :
    (gitStatus env.objects target).isClean = true ∧
      env.lfsObjects snapshot = .ok () ∧ env.reparsePoints = .ok () ∧
      env.pathsSupported snapshot = .ok () ∧
      env.materializationSupported snapshot = .ok () ∧
      source.refs.find? snapshot.indexRef = some commits.1 ∧
      source.refs.find? snapshot.workRef = some commits.2 := by
  unfold preflight at h
  obtain ⟨plan, hplan, h⟩ := bind_eq_ok_iff.mp h
  obtain ⟨_, hlfs, h⟩ := bind_eq_ok_iff.mp h
  obtain ⟨_, hreparse, h⟩ := bind_eq_ok_iff.mp h
  obtain ⟨_, hpaths, h⟩ := bind_eq_ok_iff.mp h
  obtain ⟨_, hmaterial, h⟩ := bind_eq_ok_iff.mp h
  exact ⟨planApplySnapshot_eq_ok hplan, hlfs, hreparse, hpaths, hmaterial,
    ensureSourceSnapshotRefs_eq_ok.mp h⟩

theorem preflight_of_checkoutRuns (h : CheckoutRuns env source snapshot target commits) :
    preflight env source snapshot target = .ok commits := by
  have hrefs := ensureSourceSnapshotRefs_eq_ok.mpr ⟨h.indexRef, h.workRef⟩
  unfold preflight planApplySnapshot
  simp only [h.clean, hrefs, h.lfsObjects, h.reparsePoints, h.pathsSupported,
    h.materializationSupported]
  rfl

/-- The target after its fetch. -/
def fetched (env : ApplyEnv) (source : Repository) (snapshot : SnapshotMetadata)
    (commits : String × String) (target : Repository) : Repository :=
  fetchSnapshotRefs env source snapshot commits target

theorem advanced_fetched (env : ApplyEnv) (source : Repository) (snapshot : SnapshotMetadata)
    (commits : String × String) (target : Repository) :
    Advanced env.objects target (fetched env source snapshot commits target) := by
  obtain ⟨hhead, hrefs⟩ := (advanced_fetchRef env.objects snapshot.indexRef commits.1
    target).trans (advanced_fetchRef env.objects snapshot.workRef commits.2 _)
  refine ⟨hhead, fun name oid hold => ?_⟩
  obtain ⟨oid', hnew, hreaches⟩ := hrefs name oid hold
  refine ⟨oid', ?_, hreaches⟩
  rw [fetched, fetchSnapshotRefs, SortedMap.find?_covering, hnew, Option.some_or]

/-- The references after an accepted fetch. -/
def fetchedRefs (env : ApplyEnv) (source : Repository) (snapshot : SnapshotMetadata)
    (commits : String × String) (target : Repository) : SortedMap String String :=
  ((target.refs.insert snapshot.indexRef commits.1).insert snapshot.workRef commits.2).covering
    (source.refs.filterMap fun name oid =>
      if followsTag env target name oid then some oid else none)

theorem fetched_eq (h : fetchAccepted env.objects snapshot commits target = true) :
    fetched env source snapshot commits target =
      { target with refs := fetchedRefs env source snapshot commits target } := by
  obtain ⟨hindex, hwork⟩ := Bool.and_eq_true_iff.mp h
  rw [fetchRef_of_accepted hindex] at hwork
  rw [fetched, fetchSnapshotRefs, fetchRef_of_accepted hindex, fetchRef_of_accepted hwork]
  rfl

/-- A reference after the fetch is one of the snapshot, one that was there, or a tag. -/
theorem find?_fetchedRefs {name : String} :
    (fetchedRefs env source snapshot commits target).find? name =
      if name = snapshot.workRef then some commits.2
      else if name = snapshot.indexRef then some commits.1
      else (target.refs.find? name).or ((source.refs.find? name).filter
        (followsTag env target name)) := by
  rw [fetchedRefs, SortedMap.find?_covering, SortedMap.find?_insert, SortedMap.find?_insert,
    SortedMap.find?_filterMap]
  split_ifs with hwork hindex
  · rfl
  · rfl
  · cases source.refs.find? name <;> rfl

theorem resolves_of_checkoutSnapshot {objects : GitObjects} {before after : Repository}
    (h : checkoutSnapshot objects snapshot before = some after) :
    (objects.commitOf snapshot.headOid).isSome := by
  unfold checkoutSnapshot at h
  cases hbranch : snapshot.branch with
  | none =>
    rw [hbranch] at h
    obtain ⟨commit, hcommit, -⟩ := Option.map_eq_some_iff.mp h
    rw [hcommit]
    rfl
  | some branch =>
    rw [hbranch] at h
    obtain ⟨commit, hcommit, -⟩ := Option.map_eq_some_iff.mp h
    rw [hcommit]
    rfl

/-- An apply that stops before its checkout leaves the target, or the target after its fetch. -/
theorem applied_before_checkout {P : Repository → Prop} (hstart : P target)
    (hfetched : ∀ commits, P (fetched env source snapshot commits target))
    (h : ¬∃ commits, CheckoutRuns env source snapshot target commits) :
    P (applied env source snapshot target) := by
  unfold applied applySnapshotInner
  refine Prog.end_query_bind hstart ?_
  intro hstatus
  refine Prog.end_ofExcept_bind hstart ?_
  intro commits hpreflight
  refine Prog.end_update_bind hstart ?_
  intro hfetch
  have hfetched := hfetched commits
  refine Prog.end_ensure_bind hfetched ?_
  intro haccepted
  refine Prog.end_ofExcept_bind hfetched ?_
  intro _ hheadBlobs
  refine Prog.end_ofExcept_bind hfetched ?_
  intro _ hindexBlobs
  refine Prog.end_ofExcept_bind hfetched ?_
  intro _ hworkBlobs
  refine Prog.end_ensure_bind hfetched ?_
  intro hinjected
  refine Prog.end_attempt_bind hfetched ?_
  intro checkedOut hcheckout hout
  -- the checkout has taken place, so nothing has stopped the apply before it
  obtain ⟨hclean, hlfs, hreparse, hpaths, hmaterial, hindex, hwork⟩ :=
    preflight_eq_ok hpreflight
  refine absurd ⟨commits, ?_⟩ h
  exact {
    clean := hclean
    indexRef := hindex
    workRef := hwork
    lfsObjects := hlfs
    reparsePoints := hreparse
    pathsSupported := hpaths
    materializationSupported := hmaterial
    accepted := haccepted
    headBlobs := hheadBlobs
    indexBlobs := hindexBlobs
    workBlobs := hworkBlobs
    injected := hinjected
    resolves := resolves_of_checkoutSnapshot hout
    commandsRun := by
      intro n hn
      interval_cases n
      · exact hstatus
      · exact hfetch
      · exact hcheckout }

/-- An apply that stops before its checkout has at most fetched. -/
theorem applied_of_not_checkoutRuns
    (h : ¬∃ commits, CheckoutRuns env source snapshot target commits) :
    Advanced env.objects target (applied env source snapshot target) :=
  applied_before_checkout (Advanced.refl env.objects target)
    (fun commits => advanced_fetched env source snapshot commits target) h

/-! ## From the checkout on -/

def checkedOutHead (snapshot : SnapshotMetadata) : Head :=
  match snapshot.branch with
  | some branch => .branch branch
  | none => .detached snapshot.headOid

def checkedOutRefs (snapshot : SnapshotMetadata) (refs : SortedMap String String) :
    SortedMap String String :=
  match snapshot.branch with
  | some branch => refs.insert (branchRef branch) snapshot.headOid
  | none => refs

/-- The repository has the checkout of the snapshot. -/
def CheckedOut (snapshot : SnapshotMetadata) (refs : SortedMap String String)
    (repo : Repository) : Prop :=
  repo.head = checkedOutHead snapshot ∧ repo.refs = checkedOutRefs snapshot refs

theorem checkedOut_of_checkoutSnapshot {objects : GitObjects} {before after : Repository}
    (h : checkoutSnapshot objects snapshot before = some after) :
    CheckedOut snapshot before.refs after := by
  unfold checkoutSnapshot at h
  unfold CheckedOut checkedOutHead checkedOutRefs
  cases hbranch : snapshot.branch with
  | none =>
    rw [hbranch] at h
    obtain ⟨commit, -, rfl⟩ := Option.map_eq_some_iff.mp h
    exact ⟨rfl, rfl⟩
  | some branch =>
    rw [hbranch] at h
    obtain ⟨commit, -, rfl⟩ := Option.map_eq_some_iff.mp h
    exact ⟨rfl, rfl⟩

theorem checkoutSnapshot_isSome {objects : GitObjects} {before : Repository}
    (h : (objects.commitOf snapshot.headOid).isSome) :
    (checkoutSnapshot objects snapshot before).isSome := by
  obtain ⟨commit, hcommit⟩ := Option.isSome_iff_exists.mp h
  unfold checkoutSnapshot Repository.checkoutBranch Repository.checkoutDetached
  cases snapshot.branch with
  | none =>
    simp only [hcommit]
    rfl
  | some branch =>
    simp only [hcommit]
    rfl

theorem insert_same {m : SortedMap String String} {k v : String} :
    (m.insert k v).insert k v = m.insert k v := by
  apply SortedMap.ext
  intro other
  rw [SortedMap.find?_insert]
  split_ifs with h
  · rw [h, SortedMap.find?_insert_self]
  · rfl

/-- The hard reset goes to the commit that is checked out already. -/
theorem CheckedOut.resetHard {objects : GitObjects} {refs : SortedMap String String}
    {before after : Repository} (h : CheckedOut snapshot refs before)
    (hreset : before.resetHard objects snapshot.headOid = some after) :
    CheckedOut snapshot refs after := by
  obtain ⟨hhead, hrefs⟩ := h
  obtain ⟨commit, -, hafter⟩ := Option.map_eq_some_iff.mp hreset
  unfold CheckedOut checkedOutHead checkedOutRefs at *
  cases hbranch : snapshot.branch with
  | none =>
    simp only [hbranch] at hhead hrefs ⊢
    rw [hhead] at hafter
    rw [← hafter]
    exact ⟨rfl, hrefs⟩
  | some branch =>
    simp only [hbranch] at hhead hrefs ⊢
    rw [hhead] at hafter
    rw [← hafter]
    refine ⟨hhead, ?_⟩
    change before.refs.insert (branchRef branch) snapshot.headOid = _
    rw [hrefs, insert_same]

/-- The steps after the checkout move no reference. -/
theorem CheckedOut.applyTrees {refs : SortedMap String String} {repo : Repository} (n : Nat)
    (h : CheckedOut snapshot refs repo) :
    CheckedOut snapshot refs ((applyTrees env snapshot).exec env.fault n repo).2 := by
  unfold Snapshot.applyTrees
  refine Prog.end_attempt_bind h ?_
  intro base _ hreset
  have hbase := h.resetHard hreset
  refine Prog.end_ensure_bind hbase ?_
  intro _
  refine Prog.end_ensure_bind hbase ?_
  intro _
  refine Prog.end_attempt_bind hbase ?_
  intro work _ hread
  obtain ⟨workCommit, -, hwork⟩ := Option.map_eq_some_iff.mp hread
  have hkept : CheckedOut snapshot refs work := by
    rw [← hwork]
    exact hbase
  refine Prog.end_ensure_bind hkept ?_
  intro _
  refine Prog.end_attempt_bind hkept ?_
  intro index _ hindexRead
  obtain ⟨indexCommit, -, hindex⟩ := Option.map_eq_some_iff.mp hindexRead
  have hlast : CheckedOut snapshot refs index := by
    rw [← hindex]
    exact hkept
  refine Prog.end_ensure_bind hlast ?_
  intro _
  refine Prog.end_ensure_bind hlast ?_
  intro _
  refine Prog.end_query_bind hlast ?_
  intro _
  cases verifySnapshot env snapshot index with
  | error e => exact hlast
  | ok verification => exact hlast

theorem applied_of_checkoutRuns (h : CheckoutRuns env source snapshot target commits) :
    CheckedOut snapshot (fetched env source snapshot commits target).refs
      (applied env source snapshot target) := by
  unfold applied applySnapshotInner
  rw [Prog.exec_query_bind (h.commandsRun 0 (by decide)), preflight_of_checkoutRuns h,
    Prog.ofExcept_ok_bind, Prog.exec_update_bind (h.commandsRun 1 (by decide)),
    Prog.ensure_bind_of_true h.accepted, h.headBlobs, Prog.ofExcept_ok_bind, h.indexBlobs,
    Prog.ofExcept_ok_bind, h.workBlobs, Prog.ofExcept_ok_bind, injectApplyFault,
    Prog.ensure_bind_of_true h.injected]
  have hsome : (checkoutSnapshot env.objects snapshot
      (fetchSnapshotRefs env source snapshot commits target)).isSome :=
    checkoutSnapshot_isSome h.resolves
  obtain ⟨checkedOut, hcheckedOut⟩ := Option.isSome_iff_exists.mp hsome
  rw [Prog.exec_attempt_bind (h.commandsRun 2 (by decide)) hcheckedOut]
  exact (checkedOut_of_checkoutSnapshot hcheckedOut).applyTrees 3

/-! ## What is lost -/

variable {after : Repository} {refs : SortedMap String String}

theorem headOid_of_checkedOut (h : CheckedOut snapshot refs after) :
    after.headOid = some snapshot.headOid := by
  unfold CheckedOut checkedOutHead checkedOutRefs at h
  obtain ⟨hhead, hrefs⟩ := h
  unfold Repository.headOid
  cases hbranch : snapshot.branch with
  | none =>
    simp only [hbranch] at hhead
    simp only [hhead]
  | some branch =>
    simp only [hbranch] at hhead hrefs
    simp only [hhead, hrefs]
    exact SortedMap.find?_insert_self ..

theorem find?_of_checkedOut (h : CheckedOut snapshot refs after) {name : String}
    (hname : ∀ branch, snapshot.branch = some branch → name ≠ branchRef branch) :
    after.refs.find? name = refs.find? name := by
  rw [h.2, checkedOutRefs]
  cases hbranch : snapshot.branch with
  | none => rfl
  | some branch => exact SortedMap.find?_insert_of_ne (hname branch hbranch)

/-- What is kept elsewhere is still referred to after the checkout. -/
theorem refersTo_of_keptElsewhere (h : CheckoutRuns env source snapshot target commits)
    (hafter : CheckedOut snapshot (fetched env source snapshot commits target).refs after)
    {tip commit : String} (hkept : KeptElsewhere env source snapshot target commits tip)
    (hreaches : env.objects.Reaches tip commit) :
    RefersTo env.objects after commit := by
  have hrefs : fetched env source snapshot commits target = _ := fetched_eq h.accepted
  rcases hkept with hhead | hindex | hwork | ⟨name, oid, hname, hold, hother⟩ |
    ⟨name, oid, htag, hfollows, hother⟩
  · exact Or.inr ⟨_, headOid_of_checkedOut hafter, hhead.trans hreaches⟩
  · refine Or.inl ⟨snapshot.indexRef, commits.1, ?_, hindex.trans hreaches⟩
    rw [find?_of_checkedOut hafter fun branch _ => (branchRef_ne_indexRef branch snapshot).symm,
      hrefs, find?_fetchedRefs,
      if_neg (SnapshotMetadata.indexRef_ne_workRef snapshot snapshot), if_pos rfl]
  · refine Or.inl ⟨snapshot.workRef, commits.2, ?_, hwork.trans hreaches⟩
    rw [find?_of_checkedOut hafter fun branch _ => (branchRef_ne_workRef branch snapshot).symm,
      hrefs, find?_fetchedRefs, if_pos rfl]
  · obtain ⟨oid', hnew, hadvanced⟩ :=
      (advanced_fetched env source snapshot commits target).2 name oid hold
    refine Or.inl ⟨name, oid', ?_, hadvanced.trans (hother.trans hreaches)⟩
    rw [find?_of_checkedOut hafter hname, hnew]
  · obtain ⟨hbranch, hindex, hwork⟩ := not_isTagRef snapshot
    have habsent : target.refs.find? name = none := by
      simp only [followsTag, Bool.and_eq_true, Option.isNone_iff_eq_none] at hfollows
      exact hfollows.1.2
    refine Or.inl ⟨name, oid, ?_, hother.trans hreaches⟩
    rw [find?_of_checkedOut hafter fun branch _ => ne_of_followsTag hfollows (hbranch branch),
      hrefs]
    change (fetchedRefs env source snapshot commits target).find? name = some oid
    rw [find?_fetchedRefs, if_neg (ne_of_followsTag hfollows hwork),
      if_neg (ne_of_followsTag hfollows hindex), habsent, htag, Option.none_or,
      Option.filter_some, if_pos hfollows]

/-- What is referred to after the checkout was kept elsewhere. -/
theorem keptElsewhere_of_refersTo (h : CheckoutRuns env source snapshot target commits)
    (hafter : CheckedOut snapshot (fetched env source snapshot commits target).refs after)
    {tip : String} (hrefers : RefersTo env.objects after tip) :
    KeptElsewhere env source snapshot target commits tip := by
  have hhead := headOid_of_checkedOut hafter
  rcases hrefers with ⟨name, oid, hfind, hreaches⟩ | ⟨oid, hoid, hreaches⟩
  · by_cases hname : ∀ branch, snapshot.branch = some branch → name ≠ branchRef branch
    · rw [find?_of_checkedOut hafter hname, fetched_eq h.accepted, find?_fetchedRefs] at hfind
      split_ifs at hfind with hwork hindex
      · rw [← Option.some.inj hfind] at hreaches
        exact Or.inr (Or.inr (Or.inl hreaches))
      · rw [← Option.some.inj hfind] at hreaches
        exact Or.inr (Or.inl hreaches)
      · rcases Option.or_eq_some_iff.mp hfind with hold | ⟨-, htag⟩
        · exact Or.inr (Or.inr (Or.inr (Or.inl ⟨name, oid, hname, hold, hreaches⟩)))
        · obtain ⟨hsource, hfollows⟩ := Option.filter_eq_some_iff.mp htag
          exact Or.inr (Or.inr (Or.inr (Or.inr ⟨name, oid, hsource, hfollows, hreaches⟩)))
    · push Not at hname
      obtain ⟨branch, hbranch, rfl⟩ := hname
      have hbranchOid : after.refs.find? (branchRef branch) = some snapshot.headOid := by
        rw [hafter.2, checkedOutRefs, hbranch]
        exact SortedMap.find?_insert_self ..
      rw [hbranchOid] at hfind
      rw [← Option.some.inj hfind] at hreaches
      exact Or.inl hreaches
  · rw [hhead] at hoid
    rw [← Option.some.inj hoid] at hreaches
    exact Or.inl hreaches

/-- A branch that is not the one of the snapshot is where it was. -/
theorem find?_branch_of_checkedOut (h : CheckoutRuns env source snapshot target commits)
    (hafter : CheckedOut snapshot (fetched env source snapshot commits target).refs after)
    {name tip : String} (hisBranch : isBranchRef name = true)
    (hname : ∀ branch, snapshot.branch = some branch → name ≠ branchRef branch)
    (htip : target.refs.find? name = some tip) : after.refs.find? name = some tip := by
  have hindex : name ≠ snapshot.indexRef := by
    intro heq
    rw [heq, not_isBranchRef_indexRef] at hisBranch
    cases hisBranch
  have hwork : name ≠ snapshot.workRef := by
    intro heq
    rw [heq, not_isBranchRef_workRef] at hisBranch
    cases hisBranch
  rw [find?_of_checkedOut hafter hname, fetched_eq h.accepted, find?_fetchedRefs, if_neg hwork,
    if_neg hindex, htip, Option.some_or]

/-- A branch loses nothing if the tips that are moved are kept elsewhere. -/
theorem refersTo_of_branch (h : CheckoutRuns env source snapshot target commits)
    (hafter : CheckedOut snapshot (fetched env source snapshot commits target).refs after)
    (hkept : ∀ tip, MovedTip target snapshot tip →
      KeptElsewhere env source snapshot target commits tip)
    {name tip commit : String} (hisBranch : isBranchRef name = true)
    (htip : target.refs.find? name = some tip) (hreaches : env.objects.Reaches tip commit) :
    RefersTo env.objects after commit := by
  by_cases hname : ∀ branch, snapshot.branch = some branch → name ≠ branchRef branch
  · have hsame := find?_branch_of_checkedOut h hafter hisBranch hname htip
    exact Or.inl ⟨name, tip, hsame, hreaches⟩
  · push Not at hname
    obtain ⟨branch, hbranch, rfl⟩ := hname
    exact refersTo_of_keptElsewhere h hafter (hkept tip (Or.inl ⟨branch, hbranch, htip⟩))
      hreaches

theorem losesNoCommit_of_checkedOut_iff (h : CheckoutRuns env source snapshot target commits)
    (hafter : CheckedOut snapshot (fetched env source snapshot commits target).refs after) :
    LosesNoCommit env.objects target after ↔
      ∀ tip, MovedTip target snapshot tip →
        KeptElsewhere env source snapshot target commits tip := by
  constructor
  · intro hloses tip hmoved
    apply keptElsewhere_of_refersTo h hafter
    apply hloses
    rcases hmoved with ⟨branch, -, htip⟩ | hdetached
    · exact Or.inl ⟨_, tip, branchRef_isBranchRef branch, htip, Relation.ReflTransGen.refl⟩
    · refine Or.inr ⟨tip, ?_, Relation.ReflTransGen.refl⟩
      rw [Repository.headOid, hdetached]
  · intro hkept commit hholds
    rcases hholds with ⟨name, tip, hisBranch, htip, hreaches⟩ | ⟨tip, htip, hreaches⟩
    · exact refersTo_of_branch h hafter hkept hisBranch htip hreaches
    · rw [Repository.headOid] at htip
      cases hhead : target.head with
      | branch name =>
        rw [hhead] at htip
        exact refersTo_of_branch h hafter hkept (branchRef_isBranchRef name) htip hreaches
      | detached oid =>
        rw [hhead] at htip
        rw [Option.some.inj htip] at hhead
        exact refersTo_of_keptElsewhere h hafter (hkept tip (Or.inr hhead)) hreaches

end

theorem commitOid_injective (objects : GitObjects) : Function.Injective objects.commitOid := by
  intro a b h
  have ha := objects.commitOf_commitOid a
  rw [h, objects.commitOf_commitOid] at ha
  exact (Option.some.inj ha).symm

/-- What a commit with these parents leads to. -/
theorem reaches_commitOid {objects : GitObjects} {commit : Commit} {other : String}
    (h : objects.Reaches (objects.commitOid commit) other) :
    other = objects.commitOid commit ∨ ∃ parent ∈ commit.parents, objects.Reaches parent other := by
  rcases Relation.ReflTransGen.cases_head h with
    heq | ⟨parent, ⟨found, hfound, hparent⟩ | htagged, hrest⟩
  · exact Or.inl heq.symm
  · rw [objects.commitOf_commitOid] at hfound
    rw [← Option.some.inj hfound] at hparent
    exact Or.inr ⟨parent, hparent, hrest⟩
  · rw [objects.tagged_commitOid] at htagged
    cases htagged

section

variable (objects : GitObjects)

def baseCommit : Commit := ⟨.empty, [], "base"⟩

/-- The commit that only the target has. -/
def localCommit : Commit := ⟨.empty, [objects.commitOid baseCommit], "local"⟩

def aheadIndexCommit : Commit := ⟨.empty, [objects.commitOid baseCommit], "index"⟩

def aheadWorkCommit : Commit :=
  ⟨.empty, [objects.commitOid (aheadIndexCommit objects)], "work"⟩

def baseSnapshot : SnapshotMetadata where
  schemaVersion := snapshotSchemaVersion
  snapshotId := "s1_0123456789abcdef01234567"
  projectId := "12345678"
  projectName := "demo"
  sessionId := none
  parentSnapshotId := none
  childSnapshots := []
  branch := some "main"
  headOid := objects.commitOid baseCommit
  indexTreeOid := objects.treeOid .empty
  indexCommitOid := objects.commitOid (aheadIndexCommit objects)
  workTreeOid := objects.treeOid .empty
  workCommitOid := objects.commitOid (aheadWorkCommit objects)
  includedUntracked := []
  excluded := []
  sidecars := []
  stateHash := ""
  createdAtUnixSeconds := 0

def emptyRepository (head : Head) (refs : SortedMap String String) : Repository where
  head := head
  refs := refs
  index := .empty
  unmerged := []
  files := .empty
  operation := none
  ignored := fun _ _ => false
  pathExists := fun files path => (files.find? path).isSome

def aheadTarget : Repository :=
  emptyRepository (.branch "main")
    (.singleton "refs/heads/main" (objects.commitOid (localCommit objects)))

def baseSource : Repository :=
  emptyRepository (.branch "main")
    ((SortedMap.singleton "refs/devrelay/snapshots/s1_0123456789abcdef01234567/index"
        (objects.commitOid (aheadIndexCommit objects))).insert
      "refs/devrelay/snapshots/s1_0123456789abcdef01234567/work"
      (objects.commitOid (aheadWorkCommit objects)))

/-- Every check passes and every command runs. -/
def quietEnv (add : AddPaths) (digest : Blake3) : ApplyEnv where
  objects := objects
  add := add
  digest := digest
  lfsObjects := fun _ => .ok ()
  reparsePoints := .ok ()
  pathsSupported := fun _ => .ok ()
  materializationSupported := fun _ => .ok ()
  holds := fun _ => true
  missingBlobs := fun _ => .ok ()
  injected := none
  fault := noFault

variable {objects}

theorem aheadTarget_clean : (gitStatus objects (aheadTarget objects)).isClean = true := by
  have hhead : (aheadTarget objects).headTree objects = .empty := by
    have hoid : (aheadTarget objects).headOid = some (objects.commitOid (localCommit objects)) := by
      rfl
    rw [Repository.headTree, hoid, Option.bind_some, objects.commitOf_commitOid]
    rfl
  unfold gitStatus
  rw [hhead]
  rfl

theorem fetchAccepted_aheadTarget : fetchAccepted objects (baseSnapshot objects)
    (objects.commitOid (aheadIndexCommit objects), objects.commitOid (aheadWorkCommit objects))
    (aheadTarget objects) = true := by
  have hindex : (aheadTarget objects).refs.find? (baseSnapshot objects).indexRef = none := by
    rfl
  have hwork : (aheadTarget objects).refs.find? (baseSnapshot objects).workRef = none := by
    rfl
  have haccepts : (aheadTarget objects).acceptsRef objects (baseSnapshot objects).indexRef
      (objects.commitOid (aheadIndexCommit objects)) = true := by
    rw [Repository.acceptsRef, hindex]
  have hafter : ((aheadTarget objects).refs.insert (baseSnapshot objects).indexRef
      (objects.commitOid (aheadIndexCommit objects))).find? (baseSnapshot objects).workRef =
        none := by
    rw [SortedMap.find?_insert_of_ne (SnapshotMetadata.indexRef_ne_workRef _ _).symm, hwork]
  unfold fetchAccepted
  rw [fetchRef_of_accepted haccepts, haccepts, Bool.true_and, Repository.acceptsRef]
  simp only [hafter]

theorem checkoutRuns_aheadTarget (add : AddPaths) (digest : Blake3) :
    CheckoutRuns (quietEnv objects add digest) (baseSource objects) (baseSnapshot objects)
      (aheadTarget objects)
      (objects.commitOid (aheadIndexCommit objects),
        objects.commitOid (aheadWorkCommit objects)) where
  clean := aheadTarget_clean
  indexRef := by rfl
  workRef := by rfl
  lfsObjects := rfl
  reparsePoints := rfl
  pathsSupported := rfl
  materializationSupported := rfl
  accepted := fetchAccepted_aheadTarget
  headBlobs := rfl
  indexBlobs := rfl
  workBlobs := rfl
  injected := nofun
  resolves := by
    change (objects.commitOf (objects.commitOid baseCommit)).isSome
    rw [objects.commitOf_commitOid]
    rfl
  commandsRun _ _ := rfl

/-- A commit with another message whose parents do not lead to the local commit does
not lead to it either. -/
theorem not_reaches_localCommit {commit : Commit} (hinfo : commit.info ≠ "local")
    (hparents : ∀ parent ∈ commit.parents,
      ¬objects.Reaches parent (objects.commitOid (localCommit objects))) :
    ¬objects.Reaches (objects.commitOid commit)
      (objects.commitOid (localCommit objects)) := by
  intro h
  rcases reaches_commitOid h with heq | ⟨parent, hparent, hrest⟩
  · have hcommit : localCommit objects = commit := commitOid_injective objects heq
    apply hinfo
    rw [← hcommit]
    rfl
  · exact hparents parent hparent hrest

/-- After the apply, nothing leads to the commit of the target. -/
theorem not_losesNoCommit_aheadTarget (add : AddPaths) (digest : Blake3) :
    ¬LosesNoCommit objects (aheadTarget objects)
      (applied (quietEnv objects add digest) (baseSource objects) (baseSnapshot objects)
        (aheadTarget objects)) := by
  have hruns : CheckoutRuns (quietEnv objects add digest) (baseSource objects)
      (baseSnapshot objects) (aheadTarget objects)
      (objects.commitOid (aheadIndexCommit objects),
        objects.commitOid (aheadWorkCommit objects)) := checkoutRuns_aheadTarget add digest
  intro hloses
  have hkept := (losesNoCommit_of_checkedOut_iff hruns (applied_of_checkoutRuns hruns)).mp
    hloses (objects.commitOid (localCommit objects)) (Or.inl ⟨"main", rfl, rfl⟩)
  have hbase : ¬objects.Reaches (objects.commitOid baseCommit)
      (objects.commitOid (localCommit objects)) :=
    not_reaches_localCommit (by decide) (by simp [baseCommit])
  have hindex : ¬objects.Reaches (objects.commitOid (aheadIndexCommit objects))
      (objects.commitOid (localCommit objects)) :=
    not_reaches_localCommit (by simp [aheadIndexCommit]) (by simpa [aheadIndexCommit] using hbase)
  have hwork : ¬objects.Reaches (objects.commitOid (aheadWorkCommit objects))
      (objects.commitOid (localCommit objects)) :=
    not_reaches_localCommit (by simp [aheadWorkCommit]) (by simpa [aheadWorkCommit] using hindex)
  rcases hkept with hhead | hfetchedIndex | hfetchedWork | ⟨name, oid, hname, hfind, -⟩ |
    ⟨name, oid, hfind, hfollows, -⟩
  · exact hbase hhead
  · exact hindex hfetchedIndex
  · exact hwork hfetchedWork
  · have hmain : name = "refs/heads/main" := by
      by_contra hne
      have hnone : (aheadTarget objects).refs.find? name = none := by
        simp [aheadTarget, emptyRepository, SortedMap.find?, hne]
      rw [hnone] at hfind
      cases hfind
    exact hname "main" rfl hmain
  · obtain ⟨-, hindexTag, hworkTag⟩ := not_isTagRef (baseSnapshot objects)
    have hnone : (baseSource objects).refs.find? name = none := by
      have hindexRef : ¬name = "refs/devrelay/snapshots/s1_0123456789abcdef01234567/index" :=
        ne_of_followsTag hfollows hindexTag
      have hworkRef : ¬name = "refs/devrelay/snapshots/s1_0123456789abcdef01234567/work" :=
        ne_of_followsTag hfollows hworkTag
      simp only [baseSource, emptyRepository, SortedMap.find?_insert, if_neg hworkRef]
      simp [SortedMap.find?, hindexRef]
    rw [hnone] at hfind
    cases hfind

end

end DevRelay.Snapshot
