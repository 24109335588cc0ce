import DevRelay.Backup.Restore

/-!
# Restores that stop

A home is an anchor from the moment the metadata file is made, and a restore
into it is refused from then on.  The repositories, the store and the audit
event of a promotion come later: a failure in between leaves an anchor that is
not whole and that no retry completes.
-/

namespace DevRelay.Backup

open DevRelay.Core DevRelay.Lib

variable {env : BackupEnv} {targetDb : String} {generation : Generation} {home : AnchorHome}
  {fault : Fault DevRelayError} {contents : List UInt8}
  {verification : BackupAnchorVerification}

/-! ## The copies as lists of nodes -/

theorem copyEntries_discard (target : Location) (entries : Entries) :
    (copyEntries target entries >>= fun _ => pure ()) =
      copyNodes copyError (entries.nodes target) := by
  induction entries generalizing target with
  | nil => rfl
  | file name contents rest ih =>
    rw [copyEntries, Entries.nodes, copyNodes, ← ih target, copyNode]
    simp only [Prog.bind_assoc]
    rfl
  | dir name children rest ihChildren ihRest =>
    rw [copyEntries, Entries.nodes, copyNodes, copyNodes_append, ← ihChildren, ← ihRest, copyNode]
    simp only [Prog.bind_assoc]
    rfl

theorem copyDirectoryRecursive_discard (source : DirTree) (target : Location) :
    (copyDirectoryRecursive source target >>= fun _ => pure ()) =
      copyNodes copyError (source.rooted target) := by
  unfold copyDirectoryRecursive DirTree.rooted
  rw [Prog.bind_assoc, copyNodes, copyEntries_discard]
  rfl

theorem inTree_copy_bind {α : Type} (source : DirTree) (target : Location) (k : Restoring α) :
    (inTree (copyDirectoryRecursive source target) >>= fun _ => k) =
      inTree (copyNodes copyError (source.rooted target)) >>= fun _ => k := by
  rw [← copyDirectoryRecursive_discard]
  unfold inTree
  rw [Prog.within_bind, Prog.bind_assoc]
  rfl

/-- The repositories and the store, as they are copied. -/
def dataNodes (generation : Generation) : List (Location × DirNode) :=
  generation.repos.rooted snapshotsLocation ++ generation.cas.rooted casLocation

theorem location_of_mem_dataNodes {node : Location × DirNode} (h : node ∈ dataNodes generation) :
    (∃ rest, node.1 = snapshotsLocation ++ rest) ∨ ∃ rest, node.1 = casLocation ++ rest := by
  rcases List.mem_append.mp h with hrepos | hcas
  · exact Or.inl (DirTree.exists_of_mem_rooted hrepos)
  · exact Or.inr (DirTree.exists_of_mem_rooted hcas)

theorem nodup_dataNodes (generation : Generation) :
    ((dataNodes generation).map Prod.fst).Nodup := by
  unfold dataNodes
  rw [List.map_append]
  apply List.Nodup.append (DirTree.nodup_rooted _ _) (DirTree.nodup_rooted _ _)
  intro location hrepos hcas
  obtain ⟨node, hnode, rfl⟩ := List.mem_map.mp hrepos
  obtain ⟨other, hother, heq⟩ := List.mem_map.mp hcas
  obtain ⟨rest, hrest⟩ := DirTree.exists_of_mem_rooted hnode
  obtain ⟨rest', hrest'⟩ := DirTree.exists_of_mem_rooted hother
  rw [hrest, hrest'] at heq
  exact absurd (List.cons.inj heq).1 (by decide)

theorem metadataLocation_notMem (generation : Generation) :
    metadataLocation ∉ (dataNodes generation).map Prod.fst := by
  intro hmem
  obtain ⟨node, hnode, heq⟩ := List.mem_map.mp hmem
  rcases location_of_mem_dataNodes hnode with ⟨rest, hrest⟩ | ⟨rest, hrest⟩
  · rw [hrest] at heq
    exact absurd (List.cons.inj heq).1 (by decide)
  · rw [hrest] at heq
    exact absurd (List.cons.inj heq).1 (by decide)

/-! ## The restore in three parts -/

/-- Up to the opening of the metadata file of the generation. -/
def prepareRestore (env : BackupEnv) (targetDb : String) (generation : Generation) :
    Restoring (BackupAnchorVerification × List UInt8) := do
  let verification ← Prog.ofExcept (env.verifyBackupAnchorGeneration generation)
  let present ← Prog.query fun home => (home.tree metadataLocation).isSome
  Prog.ensure (present = false)
    (.config ("refusing to restore over existing anchor metadata at " ++ targetDb))
  createAnchorDirs
  Prog.write id
  let contents ← Prog.ofExcept (readMetadata generation)
  pure (verification, contents)

/-- Everything behind the making of the metadata file. -/
def copyData (generation : Generation) (contents : List UInt8) : Prog DirStore DevRelayError Unit :=
  writeBytes metadataLocation contents >>= fun _ => copyNodes copyError (dataNodes generation)

theorem restore_eq (env : BackupEnv) (targetDb : String) (generation : Generation) :
    restoreBackupAnchorGeneration env targetDb generation =
      prepareRestore env targetDb generation >>= fun r =>
        Prog.attempt createMetadata? (copyError metadataLocation) >>= fun _ =>
          inTree (copyData generation r.2) >>= fun _ => pure r.1 := by
  unfold restoreBackupAnchorGeneration prepareRestore copyMetadata copyData dataNodes
  simp only [Prog.bind_assoc, inTree_copy_bind, copyNodes_append]
  unfold inTree
  simp only [Prog.within_bind, Prog.bind_assoc]
  rfl

/-! ## Before the metadata file -/

/-- The directories of an anchor. -/
def anchorNodes : List (Location × DirNode) :=
  [([], .directory), (snapshotsLocation, .directory), (casLocation, .directory)]

theorem nodup_anchorNodes : (anchorNodes.map Prod.fst).Nodup := by decide

theorem copyCost_anchorNodes : copyCost anchorNodes = 3 := rfl

/-- The home with the directories of an anchor. -/
def prepared (home : AnchorHome) : AnchorHome :=
  { home with tree := overlay home.tree anchorNodes }

theorem prepared_metadata (home : AnchorHome) :
    (prepared home).tree metadataLocation = home.tree metadataLocation :=
  overlay_of_notMem (by decide)

/-- The statements up to the making of the metadata file all run. -/
structure Begins (fault : Fault DevRelayError) (home : AnchorHome) : Prop where
  runs : ∀ k < 7, fault k = none
  fits : ∀ node ∈ anchorNodes, Fits home.tree node

theorem exec_inTree {α : Type} (p : Prog DirStore DevRelayError α) (n : Nat) (home : AnchorHome) :
    (inTree p).exec fault n home =
      ((p.exec fault n home.tree).1, { home with tree := (p.exec fault n home.tree).2 }) := by
  unfold inTree
  rw [Prog.exec_within]
  · exact fun _ _ => rfl
  · exact fun _ => rfl
  · exact fun _ _ _ => rfl

theorem ran_inTree {α : Type} (p : Prog DirStore DevRelayError α) (n : Nat)
    (home : AnchorHome) : (inTree p).ran fault n home = p.ran fault n home.tree := by
  unfold inTree
  rw [Prog.ran_within]
  exact fun _ _ => rfl

/-- The three directories. -/
theorem exec_anchorNodes (h : RunsThrough fault 2 home.tree anchorNodes) :
    (inTree (copyNodes copyError anchorNodes)).exec fault 2 home = (.ok (), prepared home) ∧
      (inTree (copyNodes copyError anchorNodes)).ran fault 2 home = 3 := by
  have hcopy : (copyNodes copyError anchorNodes).exec fault 2 home.tree =
        (.ok (), overlay home.tree anchorNodes) ∧
      (copyNodes copyError anchorNodes).ran fault 2 home.tree = copyCost anchorNodes :=
    copyNodes_through nodup_anchorNodes h
  rw [exec_inTree, ran_inTree, hcopy.1, hcopy.2]
  exact ⟨rfl, rfl⟩

theorem Begins.runsThrough (h : Begins fault home) : RunsThrough fault 2 home.tree anchorNodes := by
  refine ⟨?_, h.fits⟩
  intro i hi
  rw [copyCost_anchorNodes] at hi
  exact h.runs (2 + i) (by omega)

theorem begins_iff :
    Begins fault home ↔ fault 0 = none ∧ fault 1 = none ∧
      RunsThrough fault 2 home.tree anchorNodes ∧ fault 5 = none ∧ fault 6 = none := by
  constructor
  · intro h
    exact ⟨h.runs 0 (by omega), h.runs 1 (by omega), h.runsThrough, h.runs 5 (by omega),
      h.runs 6 (by omega)⟩
  · rintro ⟨hquery, hbase, ⟨hdirs, hfits⟩, hopen, hmake⟩
    refine ⟨?_, hfits⟩
    rw [copyCost_anchorNodes] at hdirs
    intro k hk
    rcases k with _ | _ | k
    · exact hquery
    · exact hbase
    · rcases Nat.lt_or_ge k 3 with hlt | hge
      · have hdir := hdirs k hlt
        rwa [Nat.add_comm] at hdir
      · rcases Nat.lt_or_ge k 4 with hlt | hlast
        · have hk' : k = 3 := by omega
          rw [hk']
          exact hopen
        · have hk' : k = 4 := by omega
          rw [hk']
          exact hmake

theorem exec_createAnchorDirs (hbase : fault 1 = none)
    (h : RunsThrough fault 2 home.tree anchorNodes) :
    createAnchorDirs.exec fault 1 home = (.ok (), prepared home) ∧
      createAnchorDirs.ran fault 1 home = 4 := by
  obtain ⟨hdirs, hcount⟩ := exec_anchorNodes h
  unfold createAnchorDirs
  rw [Prog.exec_write_bind hbase, Prog.ran_write_bind hbase, id_eq]
  refine ⟨hdirs, ?_⟩
  exact congrArg (· + 1) hcount

/-- The home is no anchor: a restore into it is not refused. -/
def NoAnchor (home : AnchorHome) : Prop := home.tree metadataLocation = none

theorem isSome_metadata (habsent : NoAnchor home) :
    (home.tree metadataLocation).isSome = false := by
  unfold NoAnchor at habsent
  rw [habsent]
  rfl

/-- The home behind the making of the metadata file, with what is written of it. -/
def begun (home : AnchorHome) (written : List UInt8) : AnchorHome where
  tree := assign (prepared home).tree metadataLocation (.file written)
  recorded := []

theorem begun_metadata (home : AnchorHome) (written : List UInt8) :
    (begun home written).tree metadataLocation = some (.file written) := by
  simp only [begun, assign_self]

section Fresh

variable (targetDb)
variable (hverified : env.verifyBackupAnchorGeneration generation = .ok verification)
  (hcontents : readMetadata generation = .ok contents)
  (habsent : NoAnchor home)

include hverified hcontents habsent

theorem prepareRestore_eq (hquery : fault 0 = none) :
    (prepareRestore env targetDb generation).exec fault 0 home =
      (createAnchorDirs >>= fun _ => Prog.write id >>= fun _ =>
        pure (verification, contents)).exec fault 1 home ∧
    (prepareRestore env targetDb generation).ran fault 0 home =
      (createAnchorDirs >>= fun _ => Prog.write id >>= fun _ =>
        pure (verification, contents)).ran fault 1 home + 1 := by
  have hpresent := isSome_metadata habsent
  unfold prepareRestore
  rw [hverified, hcontents, Prog.ofExcept_ok_bind, Prog.exec_query_bind hquery,
    Prog.ran_query_bind hquery, Prog.ensure_bind_of_true hpresent]
  exact ⟨rfl, rfl⟩

theorem prepareRestore_through (h : Begins fault home) :
    (prepareRestore env targetDb generation).exec fault 0 home =
        (.ok (verification, contents), prepared home) ∧
      (prepareRestore env targetDb generation).ran fault 0 home = 6 := by
  obtain ⟨hexec, hran⟩ := prepareRestore_eq targetDb hverified hcontents habsent
    (h.runs 0 (by omega))
  obtain ⟨hdirs, hcount⟩ := exec_createAnchorDirs (h.runs 1 (by omega)) h.runsThrough
  have hopen : fault (1 + 4) = none := h.runs 5 (by omega)
  refine ⟨?_, ?_⟩
  · rw [hexec, Prog.exec_bind, hdirs, hcount]
    dsimp only
    rw [Prog.exec_write_bind hopen]
    rfl
  · rw [hran, Prog.ran_bind_of_ok hdirs, hcount, Prog.ran_write_bind hopen]
    rfl

/-- Stopped in front of the metadata file, a restore leaves none. -/
theorem prepareRestore_keeps :
    (prepareRestore env targetDb generation).Ensures NoAnchor (fun _ _ => True) home := by
  have hpresent := isSome_metadata habsent
  unfold prepareRestore createAnchorDirs
  rw [hverified, hcontents, Prog.ofExcept_ok_bind]
  apply Prog.ensures_query_bind (I := NoAnchor) habsent
  rw [Prog.ensure_bind_of_true hpresent, Prog.bind_assoc]
  apply Prog.ensures_write_bind (I := NoAnchor) habsent
  have hdirs : (copyNodes copyError anchorNodes).Ensures (KeptAt metadataLocation none)
      (fun _ _ => True) home.tree := copyNodes_ensures (by decide) habsent
  have hwithin : (inTree (copyNodes copyError anchorNodes)).Ensures NoAnchor
      (fun _ _ => True) home :=
    Prog.ensures_within (fun _ _ => rfl) (fun _ _ hkept _ => hkept) habsent hdirs
  apply Prog.ensures_bind (I := NoAnchor) habsent hwithin
  intro _ t ht _
  exact ⟨ht, trivial⟩

theorem prepareRestore_ok {r : BackupAnchorVerification × List UInt8} {t : AnchorHome}
    (h : (prepareRestore env targetDb generation).exec fault 0 home = (.ok r, t)) :
    fault 0 = none ∧ fault 1 = none ∧ RunsThrough fault 2 home.tree anchorNodes ∧
      fault 5 = none ∧ (prepareRestore env targetDb generation).ran fault 0 home = 6 := by
  have hquery : fault 0 = none := by
    unfold prepareRestore at h
    rw [hverified, Prog.ofExcept_ok_bind, Prog.exec_query_bind_ok] at h
    exact h.1
  obtain ⟨hexec, hran⟩ := prepareRestore_eq targetDb hverified hcontents habsent hquery
  rw [hexec, Prog.exec_bind_ok] at h
  obtain ⟨⟨⟩, u, hanchor, hopen⟩ := h
  have hbase : fault 1 = none := by
    unfold createAnchorDirs at hanchor
    rw [Prog.exec_write_bind_ok] at hanchor
    exact hanchor.1
  have hdirs : RunsThrough fault 2 home.tree anchorNodes := by
    by_contra hnot
    have hfails : ∃ e, ((copyNodes copyError anchorNodes).exec fault 2 home.tree).1 = .error e :=
      copyNodes_error nodup_anchorNodes hnot
    obtain ⟨e, hfails⟩ := hfails
    unfold createAnchorDirs at hanchor
    rw [Prog.exec_write_bind hbase] at hanchor
    have hcopied : ((inTree (copyNodes copyError anchorNodes)).exec fault 2 home).1 = .ok () :=
      congrArg Prod.fst hanchor
    rw [exec_inTree, hfails] at hcopied
    cases hcopied
  obtain ⟨hdone, hcount⟩ := exec_createAnchorDirs hbase hdirs
  rw [hcount, Prog.exec_write_bind_ok] at hopen
  refine ⟨hquery, hbase, hdirs, hopen.1, ?_⟩
  rw [hran, Prog.ran_bind_of_ok hdone, hcount, Prog.ran_write_bind hopen.1]
  rfl

/-- A restore that does not begin leaves no metadata. -/
theorem restore_not_begun (h : ¬Begins fault home) :
    ∃ e t, (restoreBackupAnchorGeneration env targetDb generation).exec fault 0 home =
      (.error e, t) ∧ NoAnchor t := by
  have hleft := Prog.exec_ensures fault 0 _ home habsent
    (prepareRestore_keeps targetDb hverified hcontents habsent)
  rw [restore_eq, Prog.exec_bind]
  rcases hprepare : (prepareRestore env targetDb generation).exec fault 0 home with ⟨_ | r, t⟩
  · rw [hprepare] at hleft
    exact ⟨_, t, rfl, hleft⟩
  · rw [hprepare] at hleft
    obtain ⟨hquery, hbase, hdirs, hopen, hran⟩ :=
      prepareRestore_ok targetDb hverified hcontents habsent hprepare
    rw [hran]
    dsimp only
    cases hmake : fault (0 + 6) with
    | some e => exact ⟨e, t, Prog.exec_attempt_bind_stopped hmake _ _ _ _, hleft⟩
    | none =>
      have hbegins := begins_iff.mpr ⟨hquery, hbase, hdirs, hopen, hmake⟩
      exact absurd hbegins h

theorem restore_begun (h : Begins fault home) :
    (restoreBackupAnchorGeneration env targetDb generation).exec fault 0 home =
        (inTree (copyData generation contents) >>= fun _ => pure verification).exec fault 7
          (begun home []) ∧
      (restoreBackupAnchorGeneration env targetDb generation).ran fault 0 home =
        (inTree (copyData generation contents) >>= fun _ => pure verification).ran fault 7
          (begun home []) + 7 := by
  obtain ⟨hexec, hran⟩ := prepareRestore_through targetDb hverified hcontents habsent h
  have hmake : fault (0 + 6) = none := h.runs 6 (by omega)
  have hmade : createMetadata? (prepared home) = some (begun home []) := by
    unfold createMetadata? DirStore.createFile?
    rw [prepared_metadata, habsent]
    rfl
  rw [restore_eq]
  refine ⟨?_, ?_⟩
  · rw [Prog.exec_bind, hexec, hran]
    dsimp only
    rw [Prog.exec_attempt_bind hmake hmade]
  · rw [Prog.ran_bind_of_ok hexec, hran]
    dsimp only
    rw [Prog.ran_attempt_bind hmake hmade]
    exact Nat.add_comm 6 _

/-- Stopped within the metadata file, a restore leaves a part of it. -/
theorem restore_cut {i : Nat} (h : Begins fault home) (hi : i < contents.length)
    (hstop : fault (7 + i) ≠ none) :
    ∃ e k, k < contents.length ∧
      (restoreBackupAnchorGeneration env targetDb generation).exec fault 0 home =
        (.error e, begun home (contents.take k)) := by
  have hfile := begun_metadata home []
  have hcut : ∃ e k, k < contents.length ∧
      (writeBytes metadataLocation contents).exec fault 7 (begun home []).tree =
        (.error e, assign (begun home []).tree metadataLocation (.file ([] ++ contents.take k))) :=
    writeBytes_stops hfile hi hstop
  obtain ⟨e, k, hk, hexec⟩ := hcut
  refine ⟨e, k, hk, ?_⟩
  rw [(restore_begun targetDb hverified hcontents habsent h).1, Prog.exec_bind, exec_inTree]
  unfold copyData
  rw [Prog.exec_bind, hexec]
  unfold begun
  rw [assign_assign]
  rfl

/-- The copy of the repositories and of the store, at the end of a restore. -/
def copyRest (generation : Generation) (verification : BackupAnchorVerification) :
    Restoring BackupAnchorVerification := do
  inTree (copyNodes copyError (dataNodes generation))
  pure verification

/-- The number of the statement behind the metadata file. -/
def dataStart (contents : List UInt8) : Nat := 7 + contents.length

theorem restore_written (h : Begins fault home)
    (hbytes : ∀ i < contents.length, fault (7 + i) = none) :
    (restoreBackupAnchorGeneration env targetDb generation).exec fault 0 home =
        (copyRest generation verification).exec fault (dataStart contents)
          (begun home contents) ∧
      (restoreBackupAnchorGeneration env targetDb generation).ran fault 0 home =
        (copyRest generation verification).ran fault (dataStart contents)
          (begun home contents) + dataStart contents := by
  have hfile := begun_metadata home []
  have hwrite : (inTree (writeBytes metadataLocation contents)).exec fault 7 (begun home []) =
        (.ok (), begun home contents) ∧
      (inTree (writeBytes metadataLocation contents)).ran fault 7 (begun home []) =
        contents.length := by
    have hthrough : (writeBytes metadataLocation contents).exec fault 7 (begun home []).tree =
          (.ok (), assign (begun home []).tree metadataLocation (.file ([] ++ contents))) ∧
        (writeBytes metadataLocation contents).ran fault 7 (begun home []).tree =
          contents.length := writeBytes_through hfile hbytes
    rw [exec_inTree, ran_inTree, hthrough.1, hthrough.2]
    unfold begun
    rw [assign_assign]
    exact ⟨rfl, rfl⟩
  have hsplit : inTree (copyData generation contents) =
      inTree (writeBytes metadataLocation contents) >>= fun _ =>
        inTree (copyNodes copyError (dataNodes generation)) := Prog.within_bind _ _ _ _
  obtain ⟨hexec, hran⟩ := restore_begun targetDb hverified hcontents habsent h
  rw [hexec, hran, hsplit, Prog.bind_assoc]
  refine ⟨?_, ?_⟩
  · rw [Prog.exec_bind, hwrite.1, hwrite.2]
    rfl
  · rw [Prog.ran_bind_of_ok hwrite.1, hwrite.2]
    unfold dataStart copyRest
    omega

end Fresh

/-! ## Behind the metadata file -/

theorem begun_unseen (home : AnchorHome) (written : List UInt8) (generation : Generation) :
    ∀ node ∈ dataNodes generation,
      (begun home written).tree node.1 = (prepared home).tree node.1 := by
  intro node hnode
  apply assign_of_ne
  intro heq
  apply metadataLocation_notMem generation
  rw [← heq]
  exact List.mem_map_of_mem hnode

theorem exec_copyRest (n : Nat) (home : AnchorHome) :
    (copyRest generation verification).exec fault n home =
      (((copyNodes copyError (dataNodes generation)).exec fault n home.tree).1.map
          fun _ => verification,
        { home with
          tree := ((copyNodes copyError (dataNodes generation)).exec fault n home.tree).2 }) := by
  unfold copyRest
  rw [Prog.exec_bind, exec_inTree]
  rcases (copyNodes copyError (dataNodes generation)).exec fault n home.tree with ⟨_ | _, t⟩
  · rfl
  · rfl

/-- The home behind a restore that runs through. -/
def restored (home : AnchorHome) (contents : List UInt8) (generation : Generation) : AnchorHome :=
  { begun home contents with tree := overlay (begun home contents).tree (dataNodes generation) }

theorem restored_metadata (home : AnchorHome) (contents : List UInt8) (generation : Generation) :
    (restored home contents generation).tree metadataLocation = some (.file contents) :=
  (overlay_of_notMem (metadataLocation_notMem generation)).trans (begun_metadata home contents)

theorem holds_restored (home : AnchorHome) (contents : List UInt8) (generation : Generation) :
    Holds (restored home contents generation).tree (dataNodes generation) :=
  holds_overlay (nodup_dataNodes generation)

theorem copyRest_through (verification : BackupAnchorVerification)
    (h : RunsThrough fault (dataStart contents) (prepared home).tree (dataNodes generation)) :
    (copyRest generation verification).exec fault (dataStart contents) (begun home contents) =
        (.ok verification, restored home contents generation) ∧
      (copyRest generation verification).ran fault (dataStart contents) (begun home contents) =
        copyCost (dataNodes generation) := by
  have hthrough : RunsThrough fault (dataStart contents) (begun home contents).tree
      (dataNodes generation) := (runsThrough_congr (begun_unseen home contents generation)).mpr h
  have hcopy : (copyNodes copyError (dataNodes generation)).exec fault (dataStart contents)
        (begun home contents).tree =
          (.ok (), overlay (begun home contents).tree (dataNodes generation)) ∧
      (copyNodes copyError (dataNodes generation)).ran fault (dataStart contents)
        (begun home contents).tree = copyCost (dataNodes generation) :=
    copyNodes_through (nodup_dataNodes generation) hthrough
  refine ⟨?_, ?_⟩
  · rw [exec_copyRest, hcopy.1]
    rfl
  · have htree : (inTree (copyNodes copyError (dataNodes generation))).exec fault
        (dataStart contents) (begun home contents) =
          (.ok (), restored home contents generation) := by
      rw [exec_inTree, hcopy.1]
      rfl
    unfold copyRest
    rw [Prog.ran_bind_of_ok htree, ran_inTree, hcopy.2]
    rfl

theorem copyRest_error (verification : BackupAnchorVerification)
    (h : ¬RunsThrough fault (dataStart contents) (prepared home).tree (dataNodes generation)) :
    ∃ e t, (copyRest generation verification).exec fault (dataStart contents)
      (begun home contents) = (.error e, t) := by
  have hthrough : ¬RunsThrough fault (dataStart contents) (begun home contents).tree
      (dataNodes generation) := by
    rwa [runsThrough_congr (begun_unseen home contents generation)]
  have hfails : ∃ e, ((copyNodes copyError (dataNodes generation)).exec fault
      (dataStart contents) (begun home contents).tree).1 = .error e :=
    copyNodes_error (nodup_dataNodes generation) hthrough
  obtain ⟨e, hfails⟩ := hfails
  rw [exec_copyRest, hfails]
  exact ⟨e, _, rfl⟩

/-- What the copy leaves, wherever it stops. -/
theorem copyRest_left (fault : Fault DevRelayError) (generation : Generation)
    (verification : BackupAnchorVerification) (home : AnchorHome) (contents : List UInt8) :
    let left := ((copyRest generation verification).exec fault (dataStart contents)
      (begun home contents)).2
    left.tree metadataLocation = some (.file contents) ∧ left.recorded = [] ∧
      (Holds left.tree (dataNodes generation) ↔
        EndsWhole fault (dataStart contents) (prepared home).tree (dataNodes generation)) := by
  intro left
  have hleft : left = { begun home contents with
      tree := ((copyNodes copyError (dataNodes generation)).exec fault (dataStart contents)
        (begun home contents).tree).2 } := congrArg Prod.snd (exec_copyRest _ _)
  have hframe : ((copyNodes copyError (dataNodes generation)).exec fault (dataStart contents)
      (begun home contents).tree).2 metadataLocation =
        (begun home contents).tree metadataLocation :=
    copyNodes_frame (metadataLocation_notMem generation)
  rw [hleft]
  refine ⟨hframe.trans (begun_metadata home contents), rfl, ?_⟩
  dsimp only
  rw [holds_copyNodes_iff (nodup_dataNodes generation),
    endsWhole_congr (begun_unseen home contents generation)]

/-! ## Calls -/

/-- The data set of the generation is there. -/
def Whole (generation : Generation) (home : AnchorHome) : Prop :=
  ∃ contents, generation.metadata = some contents ∧
    home.tree metadataLocation = some (.file contents) ∧ Holds home.tree (dataNodes generation)

inductive BackupCall where
  | restore
  | promote (request : BackupPromotionRequest)

namespace BackupCall

/-- The home behind a call, finished or stopped. -/
def after (env : BackupEnv) (targetDb : String) (generation : Generation)
    (fault : Fault DevRelayError) (home : AnchorHome) : BackupCall → AnchorHome
  | restore => ((restoreBackupAnchorGeneration env targetDb generation).exec fault 0 home).2
  | promote request =>
    ((promoteBackupAnchorGeneration env targetDb generation request).exec fault 0 home).2

/-- A promotion is in the audit log. -/
def Recorded (generation : Generation) (home : AnchorHome) : BackupCall → Prop
  | restore => True
  | promote request => ∃ manifest, generation.manifest = .ok manifest ∧
      promotionEvent request manifest ∈ home.recorded

/-- The home is no anchor, or everything is in it. -/
def AllOrNothing (generation : Generation) (call : BackupCall) (home : AnchorHome) : Prop :=
  NoAnchor home ∨ Whole generation home ∧ call.Recorded generation home

/-- The checks in front of the restore. -/
def Admitted (generation : Generation) : BackupCall → Prop
  | restore => True
  | promote request => ∃ manifest, generation.manifest = .ok manifest ∧
      admitPromotion request manifest = .ok ()

/-- Nothing is missing where the call ends, from the first repository on.  Without an event
nothing may stop it. -/
def Finishes (fault : Fault DevRelayError) (home : AnchorHome) (generation : Generation)
    (contents : List UInt8) : BackupCall → Prop
  | restore => EndsWhole fault (dataStart contents) (prepared home).tree (dataNodes generation)
  | promote _ =>
    RunsThrough fault (dataStart contents) (prepared home).tree (dataNodes generation) ∧
      fault (dataStart contents + copyCost (dataNodes generation)) = none ∧
      fault (dataStart contents + copyCost (dataNodes generation) + 1) = none

/-- Once the metadata file is made, the call goes on to its end.  An anchor is left as it is. -/
def Survives (fault : Fault DevRelayError) (generation : Generation) (home : AnchorHome)
    (call : BackupCall) : Prop :=
  (¬NoAnchor home → Whole generation home ∧ call.Recorded generation home) ∧
    (NoAnchor home → call.Admitted generation → Begins fault home →
      ∀ contents, generation.metadata = some contents →
        (∀ i < contents.length, fault (7 + i) = none) ∧
          call.Finishes fault home generation contents)

end BackupCall

/-! ### Refused calls -/

theorem restore_refused (h : ¬NoAnchor home) :
    ∃ e, (restoreBackupAnchorGeneration env targetDb generation).exec fault 0 home =
      (.error e, home) := by
  have hpresent : (home.tree metadataLocation).isSome = true :=
    Option.isSome_iff_ne_none.mpr h
  unfold restoreBackupAnchorGeneration
  cases env.verifyBackupAnchorGeneration generation with
  | error e => exact ⟨e, rfl⟩
  | ok verification =>
    rw [Prog.ofExcept_ok_bind]
    cases hquery : fault 0 with
    | some e => exact ⟨e, Prog.exec_query_bind_stopped hquery _ _ _⟩
    | none =>
      rw [Prog.exec_query_bind hquery, hpresent]
      exact ⟨_, rfl⟩

/-- What a promotion does behind the restore. -/
def recordPromotion (request : BackupPromotionRequest) (manifest : BackupAnchorManifest) :
    Restoring BackupAnchorPromotion := do
  Prog.write id
  recordAuditEvent (promotionEvent request manifest)
  pure {
    generationId := manifest.generationId
    sourceAnchorDeviceId := manifest.sourceAnchorDeviceId
    promotedDeviceId := request.promotedDeviceId
    generationAgeSeconds := generationAge request manifest
    revocationCount := manifest.revocationCount
    auditId := request.auditId }

section Promotion

variable {request : BackupPromotionRequest} {manifest : BackupAnchorManifest}

theorem promote_eq (hmanifest : generation.manifest = .ok manifest)
    (hadmitted : admitPromotion request manifest = .ok ()) :
    promoteBackupAnchorGeneration env targetDb generation request =
      restoreBackupAnchorGeneration env targetDb generation >>= fun _ =>
        recordPromotion request manifest := by
  unfold promoteBackupAnchorGeneration
  rw [hmanifest, Prog.ofExcept_ok_bind, hadmitted]
  rfl

theorem promote_not_admitted (hmanifest : generation.manifest = .ok manifest)
    (h : admitPromotion request manifest ≠ .ok ()) :
    ((promoteBackupAnchorGeneration env targetDb generation request).exec fault 0 home).2 =
      home := by
  unfold promoteBackupAnchorGeneration
  rw [hmanifest, Prog.ofExcept_ok_bind]
  cases hadmit : admitPromotion request manifest with
  | error e => rfl
  | ok u => exact absurd hadmit h

theorem validateAuditInput_promotionEvent :
    validateAuditInput (promotionEvent request manifest) = .ok () := by
  have hsummary : (promotionEvent request manifest).summary =
      "backup anchor generation promoted to primary" := rfl
  unfold validateAuditInput
  rw [hsummary]
  exact if_neg (by decide)

/-- The event is recorded by the last statement. -/
theorem recordPromotion_left (n : Nat) (home : AnchorHome) :
    ((recordPromotion request manifest).exec fault n home).2 =
      if fault n = none ∧ fault (n + 1) = none then
        { home with recorded := home.recorded ++ [promotionEvent request manifest] }
      else home := by
  unfold recordPromotion recordAuditEvent
  rw [validateAuditInput_promotionEvent, Prog.ofExcept_ok_bind]
  cases hopen : fault n with
  | some e =>
    rw [Prog.exec_write_bind_stopped hopen]
    rfl
  | none =>
    rw [Prog.exec_write_bind hopen]
    cases hinsert : fault (n + 1) with
    | some e =>
      rw [Prog.exec_write_bind_stopped hinsert]
      rfl
    | none =>
      rw [Prog.exec_write_bind hinsert]
      rfl

end Promotion

/-! ### Whole calls -/

namespace BackupCall

variable {call : BackupCall} {request : BackupPromotionRequest} {manifest : BackupAnchorManifest}

/-- A call into a home that is an anchor leaves it as it is. -/
theorem after_anchor (hmanifest : generation.manifest = .ok manifest) (h : ¬NoAnchor home) :
    call.after env targetDb generation fault home = home := by
  have hrefused := @restore_refused env targetDb generation home fault h
  obtain ⟨e, hexec⟩ := hrefused
  cases call with
  | restore => exact congrArg Prod.snd hexec
  | promote request =>
    by_cases hadmitted : admitPromotion request manifest = .ok ()
    · show ((promoteBackupAnchorGeneration env targetDb generation request).exec fault 0
        home).2 = home
      rw [promote_eq hmanifest hadmitted, Prog.exec_bind, hexec]
    · exact promote_not_admitted hmanifest hadmitted

/-- So does a promotion that is not admitted. -/
theorem after_not_admitted (hmanifest : generation.manifest = .ok manifest)
    (h : ¬call.Admitted generation) : call.after env targetDb generation fault home = home := by
  cases call with
  | restore => exact absurd trivial h
  | promote request =>
    apply promote_not_admitted hmanifest
    intro hadmitted
    exact h ⟨manifest, hmanifest, hadmitted⟩

theorem after_restore_error {e : DevRelayError} {t : AnchorHome}
    (hadmitted : call.Admitted generation)
    (h : (restoreBackupAnchorGeneration env targetDb generation).exec fault 0 home =
      (.error e, t)) : call.after env targetDb generation fault home = t := by
  cases call with
  | restore => exact congrArg Prod.snd h
  | promote request =>
    obtain ⟨manifest, hmanifest, hadmit⟩ := hadmitted
    show ((promoteBackupAnchorGeneration env targetDb generation request).exec fault 0
      home).2 = t
    rw [promote_eq hmanifest hadmit, Prog.exec_bind, h]

theorem recorded_promote_iff (hmanifest : generation.manifest = .ok manifest) :
    (promote request).Recorded generation home ↔
      promotionEvent request manifest ∈ home.recorded := by
  constructor
  · rintro ⟨other, hother, hmem⟩
    rw [hmanifest] at hother
    cases hother
    exact hmem
  · exact fun hmem => ⟨manifest, hmanifest, hmem⟩

theorem admitPromotion_of_admitted (hmanifest : generation.manifest = .ok manifest)
    (h : (promote request).Admitted generation) : admitPromotion request manifest = .ok () := by
  obtain ⟨other, hother, hadmit⟩ := h
  rw [hmanifest] at hother
  cases hother
  exact hadmit

theorem whole_iff (hcontents : generation.metadata = some contents)
    (hfile : home.tree metadataLocation = some (.file contents)) :
    Whole generation home ↔ Holds home.tree (dataNodes generation) := by
  constructor
  · rintro ⟨_, _, _, hdata⟩
    exact hdata
  · exact fun hdata => ⟨contents, hcontents, hfile, hdata⟩

section Begun

variable (hverified : env.verifyBackupAnchorGeneration generation = .ok verification)
  (hcontents : generation.metadata = some contents) (habsent : NoAnchor home)
  (hadmitted : call.Admitted generation) (hbegins : Begins fault home)

include hverified hcontents habsent hadmitted hbegins

/-- Cut short, the metadata file refuses the retry and is no copy. -/
theorem not_allOrNothing_of_cut {i : Nat} (hi : i < contents.length)
    (hstop : fault (7 + i) ≠ none) :
    ¬call.AllOrNothing generation (call.after env targetDb generation fault home) := by
  have hread := readMetadata_eq_ok.mpr hcontents
  obtain ⟨e, k, hk, hexec⟩ := restore_cut targetDb hverified hread habsent hbegins hi hstop
  rw [after_restore_error hadmitted hexec]
  have hfile := begun_metadata home (contents.take k)
  rintro (hnone | ⟨⟨bytes, hbytes, hwhole, _⟩, _⟩)
  · unfold NoAnchor at hnone
    rw [hfile] at hnone
    cases hnone
  · have hsame : contents = bytes := Option.some.inj (hcontents.symm.trans hbytes)
    have hpart : contents.take k = bytes :=
      DirNode.file.inj (Option.some.inj (hfile.symm.trans hwhole))
    have hlength := congrArg List.length (hpart.trans hsame.symm)
    rw [List.length_take] at hlength
    omega

theorem allOrNothing_restore_iff (hcall : call = restore)
    (hbytes : ∀ i < contents.length, fault (7 + i) = none) :
    call.AllOrNothing generation (call.after env targetDb generation fault home) ↔
      call.Finishes fault home generation contents := by
  have hread := readMetadata_eq_ok.mpr hcontents
  have hexec := (restore_written targetDb hverified hread habsent hbegins hbytes).1
  obtain ⟨hfile, _, hdata⟩ := copyRest_left fault generation verification home contents
  subst hcall
  show AllOrNothing generation restore
      ((restoreBackupAnchorGeneration env targetDb generation).exec fault 0 home).2 ↔
    EndsWhole fault (dataStart contents) (prepared home).tree (dataNodes generation)
  rw [hexec, ← hdata]
  constructor
  · rintro (hnone | ⟨hwhole, _⟩)
    · exact absurd (hfile.symm.trans hnone) (by simp)
    · exact (whole_iff hcontents hfile).mp hwhole
  · exact fun hholds => Or.inr ⟨(whole_iff hcontents hfile).mpr hholds, trivial⟩

theorem allOrNothing_promote_iff (hcall : call = promote request)
    (hmanifest : generation.manifest = .ok manifest)
    (hbytes : ∀ i < contents.length, fault (7 + i) = none) :
    call.AllOrNothing generation (call.after env targetDb generation fault home) ↔
      call.Finishes fault home generation contents := by
  have hread := readMetadata_eq_ok.mpr hcontents
  obtain ⟨hexec, hran⟩ := restore_written targetDb hverified hread habsent hbegins hbytes
  subst hcall
  by_cases hthrough : RunsThrough fault (dataStart contents) (prepared home).tree
    (dataNodes generation)
  · obtain ⟨hcopy, hcost⟩ := copyRest_through verification hthrough
    rw [hcopy] at hexec
    rw [hcost, Nat.add_comm] at hran
    have hleft : after env targetDb generation fault home (promote request) =
        if fault (dataStart contents + copyCost (dataNodes generation)) = none ∧
            fault (dataStart contents + copyCost (dataNodes generation) + 1) = none then
          { restored home contents generation with recorded := [promotionEvent request manifest] }
        else restored home contents generation := by
      show ((promoteBackupAnchorGeneration env targetDb generation request).exec fault 0
        home).2 = _
      rw [promote_eq hmanifest (admitPromotion_of_admitted hmanifest hadmitted), Prog.exec_bind,
        hexec, hran, Nat.zero_add]
      exact recordPromotion_left _ _
    rw [hleft]
    have hfile := restored_metadata home contents generation
    have hwhole := holds_restored home contents generation
    split
    · rename_i hboth
      refine iff_of_true (Or.inr ⟨?_, ?_⟩) ⟨hthrough, hboth⟩
      · exact ⟨contents, hcontents, hfile, hwhole⟩
      · exact (recorded_promote_iff hmanifest).mpr List.mem_cons_self
    · rename_i hnot
      refine iff_of_false ?_ fun hfinishes => hnot hfinishes.2
      rintro (hnone | ⟨_, hmem⟩)
      · exact absurd (hfile.symm.trans hnone) (by simp)
      · exact absurd ((recorded_promote_iff hmanifest).mp hmem) List.not_mem_nil
  · have hleft := copyRest_left fault generation verification home contents
    obtain ⟨e, t, hfails⟩ := copyRest_error verification hthrough
    rw [hfails] at hleft hexec
    obtain ⟨hfile, hrecorded, _⟩ := hleft
    rw [after_restore_error hadmitted hexec]
    constructor
    · rintro (hnone | ⟨_, hmem⟩)
      · exact absurd (hfile.symm.trans hnone) (by simp)
      · rw [recorded_promote_iff hmanifest, hrecorded] at hmem
        cases hmem
    · rintro ⟨hruns, _⟩
      exact absurd hruns hthrough

/-- With its metadata file written, a call ends well where it finishes. -/
theorem allOrNothing_written_iff (hmanifest : generation.manifest = .ok manifest)
    (hbytes : ∀ i < contents.length, fault (7 + i) = none) :
    call.AllOrNothing generation (call.after env targetDb generation fault home) ↔
      call.Finishes fault home generation contents := by
  cases hcall : call with
  | restore =>
    rw [← hcall]
    exact allOrNothing_restore_iff hverified hcontents habsent hadmitted hbegins hcall hbytes
  | promote request =>
    rw [← hcall]
    exact allOrNothing_promote_iff hverified hcontents habsent hadmitted hbegins hcall
      hmanifest hbytes

end Begun

theorem survives_begun_iff (hcontents : generation.metadata = some contents)
    (habsent : NoAnchor home) (hadmitted : call.Admitted generation) (hbegins : Begins fault home) :
    call.Survives fault generation home ↔
      (∀ i < contents.length, fault (7 + i) = none) ∧
        call.Finishes fault home generation contents := by
  constructor
  · exact fun h => h.2 habsent hadmitted hbegins contents hcontents
  · intro h
    refine ⟨fun hanchor => absurd habsent hanchor, ?_⟩
    intro _ _ _ bytes hbytes
    cases hcontents.symm.trans hbytes
    exact h

/-- A restore or a promotion of a verified generation, stopped anywhere, leaves no anchor or
the whole of it exactly if, once the metadata file is made, it goes on to its end. -/
theorem allOrNothing_iff_survives
    (hverified : env.verifyBackupAnchorGeneration generation = .ok verification) :
    call.AllOrNothing generation (call.after env targetDb generation fault home) ↔
      call.Survives fault generation home := by
  obtain ⟨manifest, contents, hpassed⟩ := env.verified_of_ok hverified
  have hmanifest := hpassed.manifest_read
  have hread := hpassed.metadata_read
  have hcontents := readMetadata_eq_ok.mp hread
  by_cases habsent : NoAnchor home
  · by_cases hadmitted : call.Admitted generation
    · by_cases hbegins : Begins fault home
      · rw [survives_begun_iff hcontents habsent hadmitted hbegins]
        by_cases hbytes : ∀ i < contents.length, fault (7 + i) = none
        · rw [and_iff_right hbytes]
          exact allOrNothing_written_iff hverified hcontents habsent hadmitted hbegins hmanifest
            hbytes
        · refine iff_of_false ?_ fun h => hbytes h.1
          push Not at hbytes
          obtain ⟨i, hi, hstop⟩ := hbytes
          exact not_allOrNothing_of_cut hverified hcontents habsent hadmitted hbegins hi hstop
      · obtain ⟨e, t, hexec, hnone⟩ := restore_not_begun targetDb hverified hread habsent hbegins
        rw [after_restore_error hadmitted hexec]
        refine iff_of_true (Or.inl hnone) ⟨fun hanchor => absurd habsent hanchor, ?_⟩
        exact fun _ _ hbegun => absurd hbegun hbegins
    · rw [after_not_admitted hmanifest hadmitted]
      refine iff_of_true (Or.inl habsent) ⟨fun hanchor => absurd habsent hanchor, ?_⟩
      exact fun _ hadmit => absurd hadmit hadmitted
  · rw [after_anchor hmanifest habsent]
    constructor
    · rintro (hnone | hwhole)
      · exact absurd hnone habsent
      · exact ⟨fun _ => hwhole, fun hnone => absurd hnone habsent⟩
    · exact fun h => Or.inr (h.1 habsent)

end BackupCall

/-- A home that is no anchor takes a restore, also one that an earlier call has begun. -/
theorem restore_whole (targetDb : String)
    (hverified : env.verifyBackupAnchorGeneration generation = .ok verification)
    (habsent : NoAnchor home) (hanchor : ∀ node ∈ anchorNodes, Fits home.tree node)
    (hdata : ∀ node ∈ dataNodes generation, Fits (prepared home).tree node) :
    ∃ t, (restoreBackupAnchorGeneration env targetDb generation).run home =
      (.ok verification, t) ∧ Whole generation t := by
  obtain ⟨manifest, contents, hpassed⟩ := env.verified_of_ok hverified
  have hread := hpassed.metadata_read
  have hbegins : Begins noFault home := ⟨fun _ _ => rfl, hanchor⟩
  have hthrough : RunsThrough (noFault : Fault DevRelayError) (dataStart contents)
      (prepared home).tree
      (dataNodes generation) := ⟨fun _ _ => rfl, hdata⟩
  have hexec := (restore_written targetDb hverified hread habsent hbegins fun _ _ => rfl).1
  rw [(copyRest_through verification hthrough).1] at hexec
  refine ⟨restored home contents generation, hexec, contents, readMetadata_eq_ok.mp hread, ?_, ?_⟩
  · exact restored_metadata home contents generation
  · exact holds_restored home contents generation

/-- What a restore leaves that returns. -/
theorem restored_of_run_ok {t : AnchorHome}
    (h : (restoreBackupAnchorGeneration env targetDb generation).run home =
      (.ok verification, t)) :
    ∃ contents, env.verifyBackupAnchorGeneration generation = .ok verification ∧
      NoAnchor home ∧ generation.metadata = some contents ∧
      t = restored home contents generation := by
  obtain ⟨returned, hverified⟩ :
      ∃ returned, env.verifyBackupAnchorGeneration generation = .ok returned := by
    have hfirst := h
    unfold restoreBackupAnchorGeneration at hfirst
    rw [Prog.run_ofExcept_bind_ok] at hfirst
    obtain ⟨returned, hverified, -⟩ := hfirst
    exact ⟨returned, hverified⟩
  have habsent : NoAnchor home := by
    by_contra hanchor
    have hrefused := @restore_refused env targetDb generation home noFault hanchor
    obtain ⟨e, hexec⟩ := hrefused
    cases hexec.symm.trans h
  obtain ⟨manifest, contents, hpassed⟩ := env.verified_of_ok hverified
  have hread := hpassed.metadata_read
  have hbegins : Begins noFault home := by
    by_contra hnot
    obtain ⟨e, u, hexec, _⟩ := restore_not_begun targetDb hverified hread habsent hnot
    cases hexec.symm.trans h
  have hexec := (restore_written targetDb hverified hread habsent hbegins fun _ _ => rfl).1
  have hthrough : RunsThrough (noFault : Fault DevRelayError) (dataStart contents)
      (prepared home).tree (dataNodes generation) := by
    by_contra hnot
    obtain ⟨e, u, hfails⟩ := copyRest_error returned hnot
    cases (hexec.trans hfails).symm.trans h
  have hdone := (hexec.trans (copyRest_through returned hthrough).1).symm.trans h
  have hsame : returned = verification := Except.ok.inj (congrArg Prod.fst hdone)
  rw [hsame] at hverified
  exact ⟨contents, hverified, habsent, readMetadata_eq_ok.mp hread, (congrArg Prod.snd hdone).symm⟩

/-! ### A stopped restore -/

namespace Stopped

/-- Every key is a key, and every signature one of it. -/
def lenientEnv : BackupEnv where
  digest := zeroDigest
  toJson _ := ByteArray.empty
  keyError _ := none
  signatureError _ _ _ := none
  git _ := none
  enclosing := none
  renderPath location := "/".intercalate location

def zeros (n : Nat) : String := String.ofList (List.replicate n '0')

/-- One file in the store. -/
def oneFile : Generation where
  manifest := .ok {
    schemaVersion := 1
    generationId := "g1"
    fabricId := "fabric"
    sourceAnchorDeviceId := "anchor"
    createdAtUnixSeconds := 0
    metadataBackupBlake3 := zeros 64
    metadataBackupBytes := 1
    repositories := []
    casFileCount := 1
    casByteCount := 1
    casDigestBlake3 := zeros 64
    revocationCount := 0
    latestRevocationAtUnixSeconds := none
    rootPublicKeyHex := zeros 64
    signatureHex := zeros 128 }
  metadata := some [1]
  repos := DirTree.empty
  cas := ⟨.file "object" [2] .nil, by decide⟩

def freshHome : AnchorHome := ⟨fun _ => none, []⟩

/-- The disk is full behind the metadata file. -/
def full : Fault DevRelayError := fun n =>
  if n = 8 then some (.io "No space left on device (os error 28)") else none

theorem verify_oneFile :
    lenientEnv.verifyBackupAnchorGeneration oneFile = .ok ⟨"g1", true, 0, 1, true⟩ := by
  rfl

theorem after_full :
    (BackupCall.restore.after lenientEnv "metadata.sqlite" oneFile full freshHome).tree
      metadataLocation = some (.file [1]) ∧
    (BackupCall.restore.after lenientEnv "metadata.sqlite" oneFile full freshHome).tree
      ["cas", "object"] = none := by
  decide

/-- The metadata is there, and nothing of the store: no retry is accepted. -/
theorem not_always_allOrNothing :
    ¬∀ (env : BackupEnv) (targetDb : String) (generation : Generation)
      (verification : BackupAnchorVerification) (home : AnchorHome)
      (fault : Fault DevRelayError) (call : BackupCall),
      env.verifyBackupAnchorGeneration generation = .ok verification →
        call.AllOrNothing generation (call.after env targetDb generation fault home) := by
  intro h
  obtain ⟨hfile, hobject⟩ := after_full
  rcases h lenientEnv "metadata.sqlite" oneFile _ freshHome full .restore verify_oneFile with
    hnone | ⟨⟨_, _, _, hdata⟩, _⟩
  · exact absurd (hfile.symm.trans hnone) (by simp)
  · have hmem : (["cas", "object"], DirNode.file [2]) ∈ dataNodes oneFile := by decide
    exact absurd (hobject.symm.trans (hdata _ hmem)) (by simp)

theorem allOrNothing_iff_survives_full :
    BackupCall.restore.AllOrNothing oneFile
        (BackupCall.restore.after lenientEnv "metadata.sqlite" oneFile full freshHome) ↔
      BackupCall.restore.Survives full oneFile freshHome :=
  BackupCall.allOrNothing_iff_survives verify_oneFile

end Stopped

end DevRelay.Backup
