import DevRelay.Snapshot.CapturedTree
import DevRelay.Snapshot.RefConsistency
import DevRelay.Snapshot.SequenceNumbers
import DevRelay.Snapshot.Submodules

/-!
# Links to the snapshots of submodules

The snapshot of a parent project links to snapshots in the stores of other
projects, and a pruning looks at one store only.  The links hold all the same.
A snapshot that a checkpoint creates gets the latest one of its store as its
parent, so the snapshots of a store form one chain: each is the latest or has a
child.  A pruning refuses both.
-/

namespace DevRelay.Snapshot

open DevRelay.Lib DevRelay.Core DevRelay.Storage DevRelay.Retention

variable {store t u : SnapshotStore} {home : SnapshotHome} {projectId : String}

/-! ## Chains -/

/-- Every row is the latest of the project or the parent of a row. -/
def Chained (store : SnapshotStore) : Prop :=
  ∀ row ∈ store.db.snapshots, store.latestSnapshotId = some row.snapshotId ∨
    ∃ child ∈ store.db.snapshots, child.projectId = store.projectId ∧
      child.parentSnapshotId = some row.snapshotId

theorem pruneSnapshot_of_chained (h : Chained store) (id : String) :
    (pruneSnapshot store.latestSnapshotId id).Ensures (fun t => t = store)
      (fun _ _ => False) store := by
  unfold pruneSnapshot getSnapshot
  simp only [Prog.bind_assoc]
  apply Prog.ensures_query_bind (I := fun t => t = store) rfl
  apply Prog.ensures_orFail_bind
  intro stored hfind
  obtain ⟨row, hrow, rfl, -, rfl⟩ := SnapshotStore.mem_of_findSnapshot hfind
  apply Prog.ensures_ensure_bind
  intro _
  apply Prog.ensures_ensure_bind
  intro hlatest
  apply Prog.ensures_query_bind (I := fun t => t = store) rfl
  apply Prog.ensures_ensure_bind
  intro hchildless
  rcases h row hrow with hisLatest | hchild
  · exact absurd hisLatest hlatest
  · have hhas := SnapshotStore.snapshotHasChildren_iff.mpr hchild
    rw [Bool.eq_false_iff] at hchildless
    exact absurd hhas hchildless

/-- Whatever the plan, the first deletion is refused. -/
theorem pruneSnapshots_of_chained (h : Chained store) (plan : PruningPlan) :
    (pruneSnapshots plan).Ensures (fun t => t = store) (fun _ _ => True) store := by
  unfold pruneSnapshots
  apply Prog.ensures_query_bind (I := fun t => t = store) rfl
  have hdecisions : ∀ decisions result,
      (pruneDecisions store.latestSnapshotId decisions result).Ensures (fun t => t = store)
        (fun _ _ => True) store := by
    intro decisions
    induction decisions with
    | nil => exact fun result => Prog.ensures_pure trivial
    | cons decision rest ih =>
      intro result
      unfold pruneDecisions
      split
      · exact ih result
      · apply Prog.ensures_bind (I := fun t => t = store) rfl
          (pruneSnapshot_of_chained h decision.snapshotId)
        intro _ _ _ hfalse
        exact absurd hfalse id
  exact hdecisions plan.decisions ⟨[], 0⟩

/-- A row with a number above all others is the latest. -/
theorem latestSnapshotId_of_max {row : SnapshotRow} (hrow : row ∈ store.db.snapshots)
    (hproject : row.projectId = store.projectId)
    (hmax : ∀ other ∈ store.db.snapshots, other.projectId = store.projectId →
      row.sequenceNumber ≤ other.sequenceNumber → other = row) :
    store.latestSnapshotId = some row.snapshotId := by
  obtain ⟨left, hleft, hleftProject, hlatest, hle⟩ := exists_latest hrow hproject
  rw [hlatest, hmax left hleft hleftProject hle]

/-- The new row becomes the latest one, and the child of the one that was. -/
theorem chained_of_insertSnapshot {env : CheckpointEnv} {metadata : SnapshotMetadata}
    {label : Option String} {pinned : Bool} {stored : StoredSnapshot} (hintact : Intact store)
    (h : Chained store) (hproject : metadata.projectId = store.projectId)
    (hinsert : insertSnapshot env { metadata with parentSnapshotId := store.latestSnapshotId }
      pinned label (withRefs store metadata) = .ok (stored, u)) : Chained u := by
  obtain ⟨hsame, -, htable, -⟩ := insertSnapshot_eq_ok hinsert
  have hmem := fun x => Table.mem_insert? (x := x) htable
  have hlatest : u.latestSnapshotId = some metadata.snapshotId := by
    apply latestSnapshotId_of_max ((hmem _).mpr (Or.inr rfl)) (hproject.trans hsame.symm)
    intro other hother hotherProject hle
    rcases (hmem other).mp hother with hold | heq
    · have howner : other.projectId = metadata.projectId :=
        (hintact other hold).project.trans hproject.symm
      have hlt := lt_nextSequenceNumber hold howner
      exact absurd hle (by simpa [checkpointRow] using hlt)
    · exact heq
  intro row hrow
  rcases (hmem row).mp hrow with hold | rfl
  · rcases h row hold with hwasLatest | ⟨child, hchild, hchildProject, hparent⟩
    · refine Or.inr ⟨_, (hmem _).mpr (Or.inr rfl), hproject.trans hsame.symm, ?_⟩
      exact hwasLatest
    · exact Or.inr ⟨child, (hmem child).mpr (Or.inl hchild), hchildProject.trans hsame.symm,
        hparent⟩
  · exact Or.inl hlatest

/-! ## Links -/

/-- Nothing that was stored is gone. -/
structure Extends (store t : SnapshotStore) : Prop where
  project : t.projectId = store.projectId
  rows : ∀ row ∈ store.db.snapshots, row ∈ t.db.snapshots
  refs : ∀ reference ∈ store.refs, reference ∈ t.refs

theorem extends_refl (store : SnapshotStore) : Extends store store :=
  ⟨rfl, fun _ h => h, fun _ h => h⟩

/-- The link names a stored snapshot of the project, with the recorded state hash, and the
snapshot repository of the project has its references. -/
def LinkHolds (home : SnapshotHome) (link : SnapshotChildSnapshot) : Prop :=
  ∃ stored, (home.store link.projectId).findSnapshot link.snapshotId = some stored ∧
    stored.metadata.stateHash = link.stateHash ∧
    stored.metadata.indexRef ∈ (home.store link.projectId).refs ∧
    stored.metadata.workRef ∈ (home.store link.projectId).refs

/-- Every link of every stored snapshot of every project holds. -/
def LinksHold (home : SnapshotHome) : Prop :=
  ∀ projectId, ∀ stored ∈ (home.store projectId).listSnapshots,
    ∀ link ∈ stored.metadata.childSnapshots, LinkHolds home link

/-- The stores keep what they have. -/
def HomeExtends (home home' : SnapshotHome) : Prop :=
  ∀ projectId, Extends (home.store projectId) (home'.store projectId)

theorem HomeExtends.trans {home' home'' : SnapshotHome} (h : HomeExtends home home')
    (h' : HomeExtends home' home'') : HomeExtends home home'' := by
  intro p
  exact ⟨(h' p).project.trans (h p).project, fun row hrow => (h' p).rows row ((h p).rows row hrow),
    fun reference href => (h' p).refs reference ((h p).refs reference href)⟩

theorem homeExtends_setStore (h : Extends (home.store projectId) t) :
    HomeExtends home (home.setStore projectId t) := by
  intro p
  by_cases hp : p = projectId
  · subst hp
    rw [SnapshotHome.store_setStore_self]
    exact h
  · rw [SnapshotHome.store_setStore_of_ne hp]
    exact extends_refl _

theorem LinkHolds.mono {home' : SnapshotHome} {link : SnapshotChildSnapshot}
    (hextends : HomeExtends home home') (h : LinkHolds home link) : LinkHolds home' link := by
  obtain ⟨stored, hfind, hhash, hindex, hwork⟩ := h
  obtain ⟨row, hrow, hid, hproject, rfl⟩ := SnapshotStore.mem_of_findSnapshot hfind
  have hstore := hextends link.projectId
  refine ⟨storedSnapshotFromRow row, ?_, hhash, hstore.refs _ hindex, hstore.refs _ hwork⟩
  rw [← hid]
  exact SnapshotStore.findSnapshot_of_mem (hstore.rows row hrow)
    (hproject.trans hstore.project.symm)

/-- What holds of a home between two calls. -/
structure Linked (home : SnapshotHome) : Prop where
  own : ∀ p, (home.store p).projectId = p
  intact : ∀ p, Intact (home.store p)
  chained : ∀ p, Chained (home.store p)
  links : ∀ p, ∀ row ∈ (home.store p).db.snapshots,
    ∀ link ∈ row.metadata.childSnapshots, LinkHolds home link

theorem Linked.linksHold (h : Linked home) : LinksHold home := by
  intro p stored hstored link hlink
  obtain ⟨row, hrow, rfl⟩ := List.mem_map.mp hstored
  rw [List.mem_insertionSort] at hrow
  exact h.links p row (List.mem_filter.mp hrow).1 link hlink

/-- A row of the project is what a link to it needs. -/
theorem Linked.linkHolds (h : Linked home) {row : SnapshotRow}
    (hrow : row ∈ (home.store projectId).db.snapshots) {link : SnapshotChildSnapshot}
    (hproject : link.projectId = projectId) (hid : link.snapshotId = row.snapshotId)
    (hhash : link.stateHash = row.metadata.stateHash) : LinkHolds home link := by
  subst hproject
  obtain ⟨hown, -, hindex, hwork⟩ := h.intact link.projectId row hrow
  refine ⟨storedSnapshotFromRow row, ?_, hhash.symm, hindex, hwork⟩
  rw [hid]
  exact SnapshotStore.findSnapshot_of_mem hrow hown

/-! ## One store -/

/-- The store of a project while statements run over it. -/
structure Grown (home : SnapshotHome) (projectId : String) (t : SnapshotStore) : Prop where
  keeps : Extends (home.store projectId) t
  intact : Intact t
  chained : Chained t
  links : ∀ row ∈ t.db.snapshots, ∀ link ∈ row.metadata.childSnapshots, LinkHolds home link

theorem Linked.grown (h : Linked home) (projectId : String) :
    Grown home projectId (home.store projectId) :=
  ⟨extends_refl _, h.intact projectId, h.chained projectId, h.links projectId⟩

theorem Linked.setStore (h : Linked home) (ht : Grown home projectId t) :
    Linked (home.setStore projectId t) := by
  have hextends := homeExtends_setStore ht.keeps
  have hstore : ∀ p, (home.setStore projectId t).store p = home.store p ∨
      (p = projectId ∧ (home.setStore projectId t).store p = t) := by
    intro p
    by_cases hp : p = projectId
    · subst hp
      exact Or.inr ⟨rfl, SnapshotHome.store_setStore_self _ _ _⟩
    · exact Or.inl (SnapshotHome.store_setStore_of_ne hp _ _)
  constructor
  · intro p
    exact (hextends p).project.trans (h.own p)
  · intro p
    rcases hstore p with hsame | ⟨-, hnew⟩
    · rw [hsame]
      exact h.intact p
    · rw [hnew]
      exact ht.intact
  · intro p
    rcases hstore p with hsame | ⟨-, hnew⟩
    · rw [hsame]
      exact h.chained p
    · rw [hnew]
      exact ht.chained
  · intro p row hrow link hlink
    apply LinkHolds.mono hextends
    rcases hstore p with hsame | ⟨-, hnew⟩
    · rw [hsame] at hrow
      exact h.links p row hrow link hlink
    · rw [hnew] at hrow
      exact ht.links row hrow link hlink

/-- Statements that let the store of a project grow keep the home linked. -/
theorem inStore_ensures {α : Type} {p : Checkpointing α} {S : α → SnapshotStore → Prop}
    (h : Linked home) (hp : p.Ensures (Grown home projectId) S (home.store projectId)) :
    (inStore projectId p).Ensures Linked
      (fun a home' => HomeExtends home home' ∧ S a (home'.store projectId)) home := by
  have hwith := Prog.ensures_with_invariant (h.grown projectId) hp
  refine Prog.ensures_post ?_ (Prog.ensures_within_post
    (fun t home => SnapshotHome.store_setStore_self projectId t home)
    (fun t u home => SnapshotHome.setStore_setStore projectId t u home)
    (SnapshotHome.setStore_self projectId home) (fun t ht => h.setStore ht) hwith)
  rintro a home' ⟨t, ⟨ht, hS⟩, rfl⟩
  refine ⟨homeExtends_setStore ht.keeps, ?_⟩
  rw [SnapshotHome.store_setStore_self]
  exact hS

/-- The store has the row of a stored snapshot. -/
def HasRow (stored : StoredSnapshot) (t : SnapshotStore) : Prop :=
  ∃ row ∈ t.db.snapshots, row.snapshotId = stored.snapshotId ∧
    row.metadata.stateHash = stored.metadata.stateHash

/-- A snapshot without a parent, whose links hold, extends the chain of its store. -/
theorem storeSnapshot_grows (h : Linked home) {env : CheckpointEnv}
    {metadata : SnapshotMetadata} (pinned : Bool) (label : Option String)
    (hparent : metadata.parentSnapshotId = none)
    (hlinks : ∀ link ∈ metadata.childSnapshots, LinkHolds home link) :
    (storeSnapshot env metadata pinned label).Ensures (Grown home projectId)
      (fun stored t => stored.projectId = projectId ∧ HasRow stored t)
      (home.store projectId) := by
  have hself := h.grown projectId
  have hintact := h.intact projectId
  apply storeSnapshot_ensures hself
  · refine ⟨⟨rfl, fun _ hrow => hrow, ?_⟩, hintact.withRefs metadata, hself.chained, hself.links⟩
    exact fun reference href => List.mem_union_iff.mpr (Or.inl href)
  · intro hproject stored u hinsert
    have hlatest : (metadata.parentSnapshotId <|> (home.store projectId).latestSnapshotId) =
        (home.store projectId).latestSnapshotId := by
      rw [hparent]
      rfl
    rw [hlatest] at hinsert
    obtain ⟨hsame, hrefs, htable, hstored⟩ := insertSnapshot_eq_ok hinsert
    have hmem := fun x => Table.mem_insert? (x := x) htable
    refine ⟨⟨⟨hsame, ?_, ?_⟩, ?_, ?_, ?_⟩, ?_, ?_⟩
    · exact fun row hrow => (hmem row).mpr (Or.inl hrow)
    · intro reference href
      rw [hrefs]
      exact List.mem_union_iff.mpr (Or.inl href)
    · exact intact_of_insertSnapshot hintact hproject hinsert
    · exact chained_of_insertSnapshot hintact hself.chained hproject hinsert
    · intro row hrow link hlink
      rcases (hmem row).mp hrow with hold | rfl
      · exact hself.links row hold link hlink
      · exact hlinks link hlink
    · rw [hstored]
      exact hproject.trans (h.own projectId)
    · rw [hstored]
      exact ⟨_, (hmem _).mpr (Or.inr rfl), rfl, rfl⟩

/-! ## The children -/

theorem insertSessionRow?_snapshots {row : SessionRow} {db db' : MetadataDb}
    (h : insertSessionRow? row db = some db') : db'.snapshots = db.snapshots := by
  unfold insertSessionRow? at h
  split at h
  · obtain ⟨sessions, -, rfl⟩ := Option.map_eq_some_iff.mp h
    rfl
  · cases h

theorem ensureDefaultSession_ensures (env : SessionEnv) (projectId displayName : String)
    (db : MetadataDb) :
    (ensureDefaultSession env projectId displayName).Ensures
      (fun db' : MetadataDb => db'.snapshots = db.snapshots) (fun _ _ => True) db := by
  have hproject := insertProjectOrIgnore_snapshots projectId db
  unfold ensureDefaultSession
  apply Prog.ensures_write_bind (I := fun db' : MetadataDb => db'.snapshots = db.snapshots) hproject
  apply Prog.ensures_write_bind (I := fun db' : MetadataDb => db'.snapshots = db.snapshots) hproject
  apply Prog.ensures_query_bind (I := fun db' : MetadataDb => db'.snapshots = db.snapshots) hproject
  split
  · exact Prog.ensures_pure trivial
  · unfold insertSession
    apply Prog.ensures_attempt_bind (I := fun db' : MetadataDb => db'.snapshots = db.snapshots)
      hproject
    intro db' hinsert
    have hsame := (insertSessionRow?_snapshots hinsert).trans hproject
    refine ⟨hsame, ?_⟩
    apply Prog.ensures_query_bind (I := fun db' : MetadataDb => db'.snapshots = db.snapshots) hsame
    unfold Prog.orFail
    split
    · trivial
    · trivial

/-- A session is no snapshot. -/
theorem defaultSession_grows (h : Linked home) (env : SessionEnv) (displayName : String) :
    (inDb (ensureDefaultSession env projectId displayName)).Ensures (Grown home projectId)
      (fun _ _ => True) (home.store projectId) := by
  have hgrown : ∀ t : SnapshotStore, (t.projectId = (home.store projectId).projectId ∧
      t.refs = (home.store projectId).refs ∧
      t.db.snapshots = (home.store projectId).db.snapshots) → Grown home projectId t := by
    rintro ⟨project, db, refs⟩ ⟨hproject, hrefs, hsnapshots⟩
    dsimp only at hproject hrefs hsnapshots
    have hrows : ∀ row, row ∈ db.snapshots ↔ row ∈ (home.store projectId).db.snapshots := by
      intro row
      rw [hsnapshots]
    have hlatest : SnapshotStore.latestSnapshotId ⟨project, db, refs⟩ =
        (home.store projectId).latestSnapshotId := by
      unfold SnapshotStore.latestSnapshotId SnapshotStore.latestSnapshot
        SnapshotStore.projectRows
      rw [hsnapshots, hproject]
    refine ⟨⟨hproject, fun row hrow => (hrows row).mpr hrow, ?_⟩, ?_, ?_, ?_⟩
    · intro reference href
      rwa [hrefs]
    · intro row hrow
      obtain ⟨howner, hnamed, hindex, hwork⟩ := h.intact projectId row ((hrows row).mp hrow)
      exact ⟨howner.trans hproject.symm, hnamed, hrefs ▸ hindex, hrefs ▸ hwork⟩
    · intro row hrow
      rw [hlatest]
      rcases h.chained projectId row ((hrows row).mp hrow) with hisLatest |
          ⟨child, hchild, hown, hp⟩
      · exact Or.inl hisLatest
      · exact Or.inr ⟨child, (hrows child).mpr hchild, hown.trans hproject.symm, hp⟩
    · exact fun row hrow => h.links projectId row ((hrows row).mp hrow)
  apply Prog.ensures_mono hgrown
  unfold inDb
  exact Prog.ensures_within (fun _ _ => rfl) (fun _ _ hdb hu => ⟨hu.1, hu.2.1, hdb⟩)
    ⟨rfl, rfl, rfl⟩ (ensureDefaultSession_ensures env projectId displayName _)

/-- The link to a submodule holds as soon as its snapshot is stored. -/
theorem checkpointDirtySubmoduleChild_ensures (h : Linked home) (digest : Blake3)
    (manifest : Manifest) (pinned : Bool) (visit : SubmoduleVisit) :
    (checkpointDirtySubmoduleChild digest manifest pinned visit).Ensures Linked
      (fun r home' => HomeExtends home home' ∧ LinkHolds home' r.1) home := by
  unfold checkpointDirtySubmoduleChild
  extract_lets childManifest
  apply Prog.ensures_write_bind h
  apply Prog.ensures_bind h (inStore_ensures h (defaultSession_grows h visit.session _))
  rintro session opened hopened ⟨hbefore, -⟩
  have hchild : (checkpointChildSubmoduleSnapshot digest visit childManifest session
      pinned).Ensures (Grown opened childManifest.projectId)
      (fun stored t => stored.projectId = childManifest.projectId ∧ HasRow stored t)
      (opened.store childManifest.projectId) := by
    unfold checkpointChildSubmoduleSnapshot
    apply Prog.ensures_ofExcept_bind
    intro created _
    apply Prog.ensures_ofExcept_bind
    intro _ _
    apply storeSnapshot_grows hopened
    · exact created.parentless
    · intro link hlink
      have hnone : link ∈ created.metadata.childSnapshots := hlink
      rw [created.childless] at hnone
      exact absurd hnone List.not_mem_nil
  apply Prog.ensures_bind hopened (inStore_ensures hopened hchild)
  rintro stored home' hhome' ⟨hafter, hproject, row, hrow, hid, hhash⟩
  refine ⟨hbefore.trans hafter, ?_⟩
  exact hhome'.linkHolds hrow hproject hid.symm hhash.symm

theorem checkpointDirtySubmodules_ensures (digest : Blake3) (manifest : Manifest)
    (pinned : Bool) (visits : List SubmoduleVisit) (childLinks : List SnapshotChildSnapshot)
    (children : List StoredSnapshot) (h : Linked home)
    (hlinks : ∀ link ∈ childLinks, LinkHolds home link) :
    (checkpointDirtySubmodules digest manifest pinned visits childLinks children).Ensures Linked
      (fun r home' => ∀ link ∈ r.1, LinkHolds home' link) home := by
  induction visits generalizing childLinks children home with
  | nil => exact Prog.ensures_pure hlinks
  | cons visit rest ih =>
    unfold checkpointDirtySubmodules
    apply Prog.ensures_bind h
      (checkpointDirtySubmoduleChild_ensures h digest manifest pinned visit)
    rintro ⟨link, stored⟩ home' hhome' ⟨hextends, hlink⟩
    apply ih _ _ hhome'
    intro old hold
    rcases List.mem_append.mp hold with hbefore | hnew
    · exact (hlinks old hbefore).mono hextends
    · rw [List.mem_singleton.mp hnew]
      exact hlink

theorem checkpointWithDirtySubmodules_ensures (h : Linked home) (env : SubmoduleCheckpointEnv)
    (projectId : String) (manifest : Manifest) (pinned : Bool) (label : Option String) :
    (checkpointWithDirtySubmodules env projectId manifest pinned label).Ensures Linked
      (fun _ _ => True) home := by
  unfold checkpointWithDirtySubmodules checkpointDirtySubmoduleChildren
  simp only [Prog.bind_assoc]
  apply Prog.ensures_ofExcept_bind
  intro visits _
  apply Prog.ensures_bind h
    (checkpointDirtySubmodules_ensures env.digest manifest pinned _ [] [] h (by simp))
  rintro ⟨childLinks, children⟩ home' hhome' hlinks
  apply Prog.ensures_ofExcept_bind
  intro created _
  apply Prog.ensures_ofExcept_bind
  intro _ _
  refine Prog.ensures_bind hhome'
    (inStore_ensures hhome' (storeSnapshot_grows hhome' pinned label ?_ ?_)) ?_
  · exact created.parentless
  · intro link hlink
    exact hlinks link ((List.mem_insertionSort _).mp hlink)
  · intro _ _ _ _
    exact Prog.ensures_pure trivial

/-! ## Runs -/

/-- What is done to a home.  Every call is stopped where its schedule says. -/
inductive HomeCall where
  | checkpointWithDirtySubmodules (fault : Fault DevRelayError) (env : SubmoduleCheckpointEnv)
      (projectId : String) (manifest : Manifest) (pinned : Bool) (label : Option String)
  | checkpoint (env : CheckpointEnv) (projectId : String)
      (created : Except DevRelayError CreatedSnapshot) (pinned : Bool) (label : Option String)
  | checkpointIfChanged (env : CheckpointEnv) (projectId : String)
      (created : Except DevRelayError CreatedSnapshot) (pinned : Bool) (label : Option String)
  | pruneSnapshots (fault : Fault DevRelayError) (projectId : String) (plan : PruningPlan)

def homeStep (home : SnapshotHome) : HomeCall → SnapshotHome
  | .checkpointWithDirtySubmodules fault env projectId manifest pinned label =>
    ((checkpointWithDirtySubmodules env projectId manifest pinned label).exec fault 0 home).2
  | .checkpoint env projectId created pinned label =>
    ((inStore projectId (checkpoint env (created.map CreatedSnapshot.metadata) pinned
      label)).exec env.fault 0 home).2
  | .checkpointIfChanged env projectId created pinned label =>
    ((inStore projectId (checkpointIfChanged env (created.map CreatedSnapshot.metadata) pinned
      label)).exec env.fault 0 home).2
  | .pruneSnapshots fault projectId plan =>
    ((inStore projectId (pruneSnapshots plan)).exec fault 0 home).2

/-- A created snapshot has no links of its own. -/
theorem storeCreated_grows (h : Linked home) {env : CheckpointEnv} {metadata : SnapshotMetadata}
    (pinned : Bool) (label : Option String) {created : Except DevRelayError CreatedSnapshot}
    (hcreated : created.map CreatedSnapshot.metadata = .ok metadata) :
    (storeSnapshot env metadata pinned label).Ensures (Grown home projectId) (fun _ _ => True)
      (home.store projectId) := by
  obtain ⟨snapshot, rfl⟩ : ∃ snapshot : CreatedSnapshot, snapshot.metadata = metadata := by
    cases created with
    | error e => cases hcreated
    | ok snapshot => exact ⟨snapshot, Except.ok.inj hcreated⟩
  refine Prog.ensures_post (fun _ _ _ => trivial)
    (storeSnapshot_grows h pinned label snapshot.parentless ?_)
  simp [snapshot.childless]

theorem linked_homeStep (h : Linked home) (call : HomeCall) : Linked (homeStep home call) := by
  have hstore : ∀ {α : Type} (projectId : String) (fault : Fault DevRelayError)
      (p : Checkpointing α), p.Ensures (Grown home projectId) (fun _ _ => True)
        (home.store projectId) → Linked ((inStore projectId p).exec fault 0 home).2 := by
    intro α projectId fault p hp
    exact Prog.exec_ensures fault 0 _ home h (inStore_ensures h hp)
  cases call with
  | checkpointWithDirtySubmodules fault env projectId manifest pinned label =>
    exact Prog.exec_ensures fault 0 _ home h
      (checkpointWithDirtySubmodules_ensures h env projectId manifest pinned label)
  | checkpoint env projectId created pinned label =>
    apply hstore
    unfold checkpoint
    apply Prog.ensures_ofExcept_bind
    intro metadata hcreated
    exact storeCreated_grows h pinned label hcreated
  | checkpointIfChanged env projectId created pinned label =>
    apply hstore
    unfold checkpointIfChanged
    apply Prog.ensures_ofExcept_bind
    intro metadata hcreated
    have hself := h.grown projectId
    apply Prog.ensures_query_bind hself
    split
    · apply Prog.ensures_bind hself (removeSourceSnapshotRefs_ensures hself)
      intro _ _ _ _
      exact Prog.ensures_pure trivial
    · apply Prog.ensures_bind hself (storeCreated_grows h pinned label hcreated)
      intro _ _ _ _
      exact Prog.ensures_pure trivial
  | pruneSnapshots fault projectId plan =>
    apply hstore
    have hself := h.grown projectId
    refine Prog.ensures_mono ?_ (pruneSnapshots_of_chained hself.chained plan)
    rintro t rfl
    exact hself

/-- A home whose stores have no snapshots yet. -/
structure NewHome (home : SnapshotHome) : Prop where
  own : ∀ p, (home.store p).projectId = p
  noRows : ∀ p, NoRows (home.store p)

theorem NewHome.linked (h : NewHome home) : Linked home :=
  ⟨h.own, fun p => (h.noRows p).intact, fun p row hrow => absurd hrow (h.noRows p row),
    fun p row hrow => absurd hrow (h.noRows p row)⟩

/-- In every state of every run the links of all stored snapshots hold. -/
theorem child_links_stay_valid (home : SnapshotHome) (calls : List HomeCall) (h : NewHome home)
    (n : Nat) : LinksHold (stateAt homeStep home calls n) := by
  have hlinked : Linked (stateAt homeStep home calls n) :=
    stateAt_invariant h.linked (fun _ call hhome => linked_homeStep hhome call) n
  exact hlinked.linksHold

/-! ## Two checkpoints and a pruning

A project with a dirty submodule is checkpointed twice, and a pruning of the
project of the submodule asks for the older of its snapshots.
-/

def createdAs (snapshotId : String) (manifest : Manifest) : CreatedSnapshot where
  metadata := { (demoRow snapshotId none 0).metadata with
    projectId := manifest.projectId
    projectName := manifest.name }
  parentless := rfl
  childless := rfl

def dirtyChild (snapshotId : String) : SubmoduleVisit where
  state := ⟨"deps/child", .dirty⟩
  created manifest := .ok (createdAs snapshotId manifest)
  session := ⟨"session-1", 100⟩
  unixEpoch := 100
  txFault := noFault

def submoduleCheckpoint (parentId childId : String) : HomeCall :=
  .checkpointWithDirtySubmodules noFault {
    digest := zeroDigest
    submodules := .ok [dirtyChild childId]
    created := .ok (createdAs parentId plainManifest)
    parent := plainCheckpoint } plainManifest.projectId plainManifest false none

def childProjectId : String :=
  dirtySubmoduleChildProjectId zeroDigest plainManifest.projectId "deps/child"

def submoduleRun : List HomeCall := [
  submoduleCheckpoint rootId leafId,
  submoduleCheckpoint newestId "s1_dddddddddddddddddddddddd",
  .pruneSnapshots noFault childProjectId leafPlan]

def newHome : SnapshotHome := ⟨fun p => { newStore with projectId := p }⟩

theorem newHome_isNew : NewHome newHome :=
  ⟨fun _ => rfl, fun _ row => Table.not_mem_empty row⟩

theorem child_links_stay_valid_submoduleRun :
    (∃ row ∈ ((stateAt homeStep newHome submoduleRun 3).store plainManifest.projectId).db.snapshots,
      row.metadata.childSnapshots.map (·.snapshotId) = [leafId]) ∧
      LinksHold (stateAt homeStep newHome submoduleRun 3) :=
  ⟨by decide +kernel, child_links_stay_valid newHome submoduleRun newHome_isNew 3⟩

end DevRelay.Snapshot
