import DevRelay.Storage.CanonicalLatest
import DevRelay.Upload.Pending

/-!
# Stored snapshots keep their data

A snapshot with a row is backed while both of its references resolve, each of its
sidecars has a reachability root, and the manifests of its sidecars are stored
with their chunks.  Publishes, their retries and `finish` keep every stored
snapshot backed wherever they are stopped.  A cleanup goes by the marker and does
not ask the database, so it keeps them backed as long as it is called for
snapshots that have no row.
-/

namespace DevRelay.Upload

open DevRelay.Lib DevRelay.Core DevRelay.Storage

/-! ## Names -/

theorem dash_notMem_toDigits (n : Nat) : '-' ∉ Nat.toDigits 10 n := by
  intro hmem
  have hdigit := Nat.isDigit_of_mem_toDigits (by decide) (by decide) hmem
  exact absurd hdigit (by decide)

theorem toDigits_injective {i j : Nat} (h : Nat.toDigits 10 i = Nat.toDigits 10 j) : i = j := by
  calc
    i = Nat.ofDigitChars 10 (Nat.toDigits 10 i) 0 := Nat.ofDigitChars_ten_toDigits.symm
    _ = Nat.ofDigitChars 10 (Nat.toDigits 10 j) 0 := by rw [h]
    _ = j := Nat.ofDigitChars_ten_toDigits

/-- Read backwards, the number of a root ends at the first dash. -/
theorem sidecarReachabilityRootId_inj {snapshotId other : String} {i j : Nat}
    (h : sidecarReachabilityRootId snapshotId i = sidecarReachabilityRootId other j) :
    snapshotId = other ∧ i = j := by
  have hnotDash : ∀ n : Nat, ∀ c ∈ (Nat.toDigits 10 n).reverse, ¬c = '-' := by
    intro n c hc heq
    apply dash_notMem_toDigits n
    rw [← heq]
    exact List.mem_reverse.mp hc
  have hchars := congrArg (fun name : String => name.toList.reverse) h
  unfold sidecarReachabilityRootId at hchars
  simp only [String.toList_append, List.reverse_append,
    Nat.toString_eq_ofList_toDigits, String.toList_ofList] at hchars
  have hstop : ∀ rest : List Char, ∀ c ∈ ("-".toList.reverse ++ rest).head?, c = '-' := by
    simp
  obtain ⟨hnumber, hrest⟩ :=
    append_inj_of_stop (hnotDash i) (hnotDash j) (hstop _) (hstop _) hchars
  constructor
  · have hreverse := List.append_cancel_right (List.append_cancel_left hrest)
    exact String.toList_injective (List.reverse_injective hreverse)
  · exact toDigits_injective (List.reverse_injective hnumber)

/-- The references of a snapshot end in different letters. -/
theorem indexRef_ne_workRef (snapshotId other : String) :
    devrelaySnapshotRefNamespace ++ snapshotId ++ "/index" ≠
      devrelaySnapshotRefNamespace ++ other ++ "/work" := by
  intro h
  have hlast := congrArg (fun name : String => name.toList.reverse.head?) h
  simp only [String.toList_append, List.reverse_append] at hlast
  exact absurd hlast (by simp)

theorem append_leaf_inj {snapshotId other leaf : String}
    (h : devrelaySnapshotRefNamespace ++ snapshotId ++ leaf =
      devrelaySnapshotRefNamespace ++ other ++ leaf) : snapshotId = other := by
  have hchars := congrArg String.toList h
  simp only [String.toList_append] at hchars
  exact String.toList_injective
    (List.append_cancel_left (List.append_cancel_right hchars))

theorem expectedSnapshotRefs_disjoint {snapshotId other name : String}
    (hname : name ∈ expectedSnapshotRefs snapshotId)
    (hother : name ∈ expectedSnapshotRefs other) : snapshotId = other := by
  simp only [expectedSnapshotRefs, List.mem_cons, List.not_mem_nil, or_false] at hname hother
  rcases hname with hindex | hwork
  · rcases hother with hindex' | hwork'
    · exact append_leaf_inj (hindex.symm.trans hindex')
    · exact absurd (hindex.symm.trans hwork') (indexRef_ne_workRef snapshotId other)
  · rcases hother with hindex' | hwork'
    · exact absurd (hindex'.symm.trans hwork) (indexRef_ne_workRef other snapshotId)
    · exact append_leaf_inj (hwork.symm.trans hwork')

/-! ## Backed snapshots -/

/-- The data of a stored snapshot is there.  `pins` is what is asked of the manifest
that the root of a sidecar names. -/
structure Backed (blake3 : Blake3) (pins : SnapshotSidecar → String → Prop)
    (s : AnchorState) (row : SnapshotRow) : Prop where
  refs : ∀ name ∈ expectedSnapshotRefs row.snapshotId, s.repo.Resolves name
  roots : ∀ i, (h : i < row.metadata.sidecars.length) →
    ∃ root, s.cas.roots (sidecarReachabilityRootId row.snapshotId i) = some root ∧
      pins row.metadata.sidecars[i] root.manifestId
  data : ∀ sidecar ∈ row.metadata.sidecars,
    ManifestStored blake3 s.cas sidecar.casManifestId

/-- A marker under the name of a snapshot is about that snapshot. -/
structure MarkerOf (snapshotId : String) (marker : PendingSnapshotUpload) : Prop where
  named : marker.snapshotId = snapshotId
  roots : ∀ rootId ∈ marker.casReachabilityRootIds,
    ∃ i, rootId = sidecarReachabilityRootId snapshotId i

structure Sound (blake3 : Blake3) (pins : SnapshotSidecar → String → Prop)
    (s : AnchorState) : Prop where
  backed : ∀ row ∈ s.db.snapshots, Backed blake3 pins s row
  markers : ∀ snapshotId marker, s.markers snapshotId = some marker →
    MarkerOf snapshotId marker

/-- An anchor that has no snapshots and no uploads yet. -/
theorem sound_of_fresh {blake3 : Blake3} {pins : SnapshotSidecar → String → Prop}
    {s : AnchorState} (hrows : s.db.snapshots.rows = [])
    (hmarkers : ∀ snapshotId, s.markers snapshotId = none) : Sound blake3 pins s where
  backed := by simp [Table.mem_def, hrows]
  markers := by simp [hmarkers]

section Steps

variable {anchor : Anchor} {pins : SnapshotSidecar → String → Prop} {s t : AnchorState}

theorem MarkerOf.pendingUploadFor (now : UInt64) (metadata : SnapshotMetadata) :
    MarkerOf metadata.snapshotId (pendingUploadFor now metadata) where
  named := rfl
  roots := by
    intro rootId hmem
    obtain ⟨i, -, rfl⟩ := List.mem_map.mp hmem
    exact ⟨i, rfl⟩

/-- A step of a cleanup: what it removes belongs to no stored snapshot. -/
theorem Sound.shrink {blake3 : Blake3} (h : Sound blake3 pins s) (hdb : t.db = s.db)
    (hmarkers : t.markers = s.markers) (hrefs : ∀ row ∈ s.db.snapshots,
      ∀ name ∈ expectedSnapshotRefs row.snapshotId,
        s.repo.Resolves name → t.repo.Resolves name)
    (hroots : ∀ row ∈ s.db.snapshots, ∀ i,
      t.cas.roots (sidecarReachabilityRootId row.snapshotId i) =
        s.cas.roots (sidecarReachabilityRootId row.snapshotId i))
    (hdata : ∀ manifestId, ManifestStored blake3 s.cas manifestId →
      ManifestStored blake3 t.cas manifestId) : Sound blake3 pins t where
  backed := by
    intro row hrow
    rw [hdb] at hrow
    have hbacked := h.backed row hrow
    exact {
      refs := fun name hname => hrefs row hrow name hname (hbacked.refs name hname)
      roots := fun i hi => by rw [hroots row hrow]; exact hbacked.roots i hi
      data := fun sidecar hmem => hdata _ (hbacked.data sidecar hmem) }
  markers := by
    rw [hmarkers]
    exact h.markers

/-- A step that adds data. -/
theorem Sound.grow {blake3 : Blake3} (h : Sound blake3 pins s) (hdb : t.db = s.db)
    (hmarkers : t.markers = s.markers) (hrefs : ∀ name, s.repo.Resolves name → t.repo.Resolves name)
    (hroots : t.cas.roots = s.cas.roots)
    (hdata : ∀ manifestId, ManifestStored blake3 s.cas manifestId →
      ManifestStored blake3 t.cas manifestId) : Sound blake3 pins t :=
  h.shrink hdb hmarkers (fun _ _ name _ => hrefs name) (fun _ _ _ => by rw [hroots]) hdata

/-- A step that only touches the markers. -/
theorem Sound.withMarkers {blake3 : Blake3} (h : Sound blake3 pins s)
    {markers : String → Option PendingSnapshotUpload}
    (hmarkers : ∀ snapshotId marker, markers snapshotId = some marker →
      s.markers snapshotId = some marker ∨ MarkerOf snapshotId marker) :
    Sound blake3 pins { s with markers } where
  backed := fun row hrow =>
    have hbacked := h.backed row hrow
    ⟨hbacked.refs, hbacked.roots, hbacked.data⟩
  markers := by
    intro snapshotId marker hmarker
    rcases hmarkers snapshotId marker hmarker with hold | hnew
    · exact h.markers snapshotId marker hold
    · exact hnew

theorem Sound.setRoot {blake3 : Blake3} (h : Sound blake3 pins s) {snapshotId : String}
    {k : Nat} {root : CasReachabilityRoot}
    (hpins : ∀ row ∈ s.db.snapshots, row.snapshotId = snapshotId →
      ∀ hk : k < row.metadata.sidecars.length,
        pins row.metadata.sidecars[k] root.manifestId) :
    Sound blake3 pins { s with cas := { s.cas with
      roots := assign s.cas.roots (sidecarReachabilityRootId snapshotId k) root } } where
  backed := by
    intro row hrow
    have hbacked := h.backed row hrow
    refine ⟨hbacked.refs, fun i hi => ?_, hbacked.data⟩
    by_cases hname : sidecarReachabilityRootId row.snapshotId i =
        sidecarReachabilityRootId snapshotId k
    · obtain ⟨hid, rfl⟩ := sidecarReachabilityRootId_inj hname
      refine ⟨root, ?_, hpins row hrow hid hi⟩
      rw [hname]
      exact assign_self
    · obtain ⟨old, hold, hpinned⟩ := hbacked.roots i hi
      exact ⟨old, (assign_of_ne hname).trans hold, hpinned⟩
  markers := h.markers

end Steps

/-! ## Publishing -/

section Publishing

variable (anchor : Anchor) (pins : SnapshotSidecar → String → Prop)

/-- A publish of a snapshot that has a row is a retry: what its sidecars ask of a root,
the sidecars of the row ask too. -/
def Retries (metadata : SnapshotMetadata) (db : MetadataDb) : Prop :=
  ∀ row ∈ db.snapshots, row.snapshotId = metadata.snapshotId →
    ∀ i, (hi : i < row.metadata.sidecars.length) → (hi' : i < metadata.sidecars.length) →
      pins row.metadata.sidecars[i] metadata.sidecars[i].casManifestId

/-- What holds wherever a publish is stopped. -/
structure Publishing (metadata : SnapshotMetadata) (s : AnchorState) : Prop where
  sound : Sound anchor.blake3 pins s
  retries : Retries pins metadata s.db

variable {anchor pins} {metadata : SnapshotMetadata} {s : AnchorState}

theorem ensures_check_bind {α β : Type} {I : AnchorState → Prop}
    {Q : β → AnchorState → Prop} {f : AnchorState → Except DevRelayError α}
    {k : α → Uploading β} (hs : I s) (h : ∀ a, f s = .ok a → (k a).Ensures I Q s) :
    (check f >>= k).Ensures I Q s := by
  refine Prog.ensures_bind (R := fun a t => t = s ∧ f s = .ok a) hs ?_ ?_
  · refine Prog.ensures_query_bind hs ?_
    cases hf : f s with
    | error e => trivial
    | ok a => exact ⟨rfl, rfl⟩
  · rintro a t - ⟨rfl, hf⟩
    exact h a hf

theorem ensures_onCas_bind {α β : Type} {I : AnchorState → Prop}
    {Q : β → AnchorState → Prop} {f : CasStore → Except DevRelayError (α × CasStore)}
    {k : α → Uploading β} (hs : I s) (h : ∀ a cas, f s.cas = .ok (a, cas) →
      I { s with cas } ∧ (k a).Ensures I Q { s with cas }) :
    (onCas f >>= k).Ensures I Q s := by
  refine Prog.ensures_call_bind hs fun a t hcall => ?_
  obtain ⟨⟨b, cas⟩, hf, heq⟩ := bind_eq_ok_iff.mp hcall
  cases heq
  exact h _ _ hf

/-- A step that adds data leaves a publish where it was. -/
theorem Publishing.grow {t : AnchorState} (h : Publishing anchor pins metadata s)
    (hdb : t.db = s.db) (hmarkers : t.markers = s.markers)
    (hrefs : ∀ name, s.repo.Resolves name → t.repo.Resolves name)
    (hroots : t.cas.roots = s.cas.roots)
    (hdata : ∀ manifestId, ManifestStored anchor.blake3 s.cas manifestId →
      ManifestStored anchor.blake3 t.cas manifestId) :
    Publishing anchor pins metadata t :=
  ⟨h.sound.grow hdb hmarkers hrefs hroots hdata, hdb ▸ h.retries⟩

theorem Publishing.withRepo (h : Publishing anchor pins metadata s) (repo : GitRepo)
    (hrefs : ∀ name, s.repo.Resolves name → repo.Resolves name) :
    Publishing anchor pins metadata { s with repo } :=
  h.grow rfl rfl hrefs rfl fun _ => id

theorem Publishing.withMarkers {markers : String → Option PendingSnapshotUpload}
    (h : Publishing anchor pins metadata s)
    (hmarkers : ∀ snapshotId marker, markers snapshotId = some marker →
      s.markers snapshotId = some marker ∨ MarkerOf snapshotId marker) :
    Publishing anchor pins metadata { s with markers } :=
  ⟨h.sound.withMarkers hmarkers, h.retries⟩

theorem mark_ensures {now : UInt64} (hs : Publishing anchor pins metadata s) :
    (markSnapshotUploadPending anchor now metadata).Ensures
      (Publishing anchor pins metadata) (fun _ _ => True) s := by
  refine Prog.ensures_ofExcept_bind fun _ _ => ?_
  refine Prog.ensures_ofExcept_bind fun _ _ => ?_
  refine Prog.ensures_ofExcept_bind fun _ _ => ?_
  refine Prog.ensures_write_bind (hs.withMarkers fun snapshotId marker hmarker => ?_)
    (Prog.ensures_pure trivial)
  rcases assign_eq_some.mp hmarker with ⟨rfl, rfl⟩ | ⟨-, hold⟩
  · exact Or.inr (MarkerOf.pendingUploadFor now metadata)
  · exact Or.inl hold

theorem import_ensures {source : GitRepo} (hs : Publishing anchor pins metadata s) :
    (importSnapshotFromRepo anchor source metadata).Ensures
      (Publishing anchor pins metadata) (fun _ _ => True) s := by
  refine Prog.ensures_ofExcept_bind fun _ _ => ?_
  refine Prog.ensures_ofExcept_bind fun indexOid hindex => ?_
  refine Prog.ensures_ofExcept_bind fun workOid hwork => ?_
  have hreceived : ∀ oid ∈ [indexOid, workOid],
      ((s.repo.receive source [indexOid, workOid]).objects oid).isSome := by
    intro oid hmem
    refine isSome_receive (Or.inr ⟨hmem, ?_⟩)
    rcases List.mem_pair.mp hmem with rfl | rfl
    · exact isSome_of_advertise hindex
    · exact isSome_of_advertise hwork
  have hobjects := hs.withRepo (s.repo.receive source [indexOid, workOid])
    fun _ => resolves_receive
  refine Prog.ensures_write_bind hobjects ?_
  have hindexed := hobjects.withRepo
    ((s.repo.receive source [indexOid, workOid]).setRef metadata.indexRef indexOid)
    fun _ => resolves_setRef (hreceived indexOid (by simp))
  refine Prog.ensures_write_bind hindexed ?_
  have hworked := hindexed.withRepo
    (((s.repo.receive source [indexOid, workOid]).setRef metadata.indexRef indexOid).setRef
      metadata.workRef workOid)
    fun _ => resolves_setRef (hreceived workOid (by simp))
  refine Prog.ensures_write_bind hworked ?_
  refine ensures_check_bind hworked fun _ _ => ?_
  exact Prog.ensures_query_bind hworked (Prog.ensures_ofExcept fun _ _ => trivial)

theorem copyChunks_ensures {sourceCas : CasStore}
    {fault : Option SnapshotDataUploadFaultPoint} {sidecar : SnapshotSidecar}
    {chunks : List CasManifestChunk} (hs : Publishing anchor pins metadata s) :
    (copyChunks anchor sourceCas fault sidecar chunks).Ensures
      (Publishing anchor pins metadata) (fun _ t => t.cas.roots = s.cas.roots) s := by
  induction chunks generalizing s with
  | nil => exact Prog.ensures_pure rfl
  | cons chunk chunks ih =>
    refine Prog.ensures_ensure_bind fun _ => ?_
    refine Prog.ensures_ofExcept_bind fun bytes _ => ?_
    refine Prog.ensures_ensure_bind fun _ => ?_
    refine ensures_onCas_bind hs fun result cas hupload => ?_
    obtain ⟨files, rfl⟩ := uploadChunk_eq hupload
    have huploaded : Publishing anchor pins metadata
        { s with cas := { s.cas with chunks := files } } :=
      hs.grow rfl rfl (fun _ => id) rfl fun _ => manifestStored_of_uploadChunk hupload
    refine ⟨huploaded, Prog.ensures_ensure_bind fun _ => ?_⟩
    exact Prog.ensures_bind huploaded (ih huploaded) fun _ _ _ hroots =>
      Prog.ensures_pure hroots

/-- The root of a sidecar of the snapshot names the manifest of that sidecar. -/
def Rooted (metadata : SnapshotMetadata) (i : Nat) (s : AnchorState) : Prop :=
  ∀ hi : i < metadata.sidecars.length, ∃ root,
    s.cas.roots (sidecarReachabilityRootId metadata.snapshotId i) = some root ∧
      root.manifestId = metadata.sidecars[i].casManifestId

theorem Rooted.setRoot {s t : AnchorState} {i k : Nat} {root : CasReachabilityRoot}
    (h : i < k → Rooted metadata i s) (hroots : t.cas.roots =
      assign s.cas.roots (sidecarReachabilityRootId metadata.snapshotId k) root)
    (hroot : ∀ hk : k < metadata.sidecars.length,
      root.manifestId = metadata.sidecars[k].casManifestId) (hi : i < k + 1) :
    Rooted metadata i t := by
  intro hlength
  rw [hroots]
  by_cases heq : i = k
  · subst heq
    exact ⟨root, assign_self, hroot hlength⟩
  · obtain ⟨old, hold, hmanifest⟩ := h (by omega) hlength
    refine ⟨old, ?_, hmanifest⟩
    rw [assign_of_ne fun hname => heq (sidecarReachabilityRootId_inj hname).2]
    exact hold

theorem copySidecar_ensures {now : UInt64} {sourceCas : CasStore}
    {fault : Option SnapshotDataUploadFaultPoint} {k : Nat}
    (hk : k < metadata.sidecars.length) (hs : Publishing anchor pins metadata s)
    (hrooted : ∀ i < k, Rooted metadata i s) :
    (copySidecar anchor now sourceCas fault metadata.snapshotId k
      metadata.sidecars[k]).Ensures (Publishing anchor pins metadata)
      (fun _ t => ∀ i < k + 1, Rooted metadata i t) s := by
  refine Prog.ensures_ofExcept_bind fun _ _ => ?_
  refine Prog.ensures_ofExcept_bind fun manifest hfetch => ?_
  refine Prog.ensures_ensure_bind fun _ => ?_
  refine Prog.ensures_bind hs (copyChunks_ensures hs) fun hashes t ht hroots => ?_
  refine ensures_onCas_bind ht fun copied cas hcreate => ?_
  obtain ⟨rfl, -, -⟩ := createManifest_eq hcreate
  have hcreated : Publishing anchor pins metadata { t with cas := { t.cas with
      manifests := assign t.cas.manifests copied.manifestId copied } } :=
    ht.grow rfl rfl (fun _ => id) rfl fun _ => manifestStored_of_createManifest hcreate
  refine ⟨hcreated, Prog.ensures_ensure_bind fun hsame => ?_⟩
  refine ensures_onCas_bind hcreated fun root cas hadd => ?_
  obtain ⟨hmanifest, rfl⟩ := addReachabilityRoot_eq hadd
  obtain ⟨-, -, -, hid⟩ := fetchManifest_eq_ok.mp hfetch
  have hroot : root.manifestId = metadata.sidecars[k].casManifestId := by
    rw [hmanifest, hsame, hid]
  refine ⟨⟨hcreated.sound.setRoot fun row hrow hsnapshot hlength => ?_, hcreated.retries⟩,
    Prog.ensures_pure fun i hi => ?_⟩
  · rw [hroot]
    exact hcreated.retries row hrow hsnapshot k hlength hk
  · refine Rooted.setRoot (s := s) (fun hik => hrooted i hik) ?_ (fun _ => hroot) hi
    rw [hroots]

/-- The loop, from the sidecar it has reached on. -/
theorem copySidecars_ensures {now : UInt64} {sourceCas : CasStore}
    {fault : Option SnapshotDataUploadFaultPoint} {sidecars : List SnapshotSidecar}
    {k : Nat} (hdrop : metadata.sidecars.drop k = sidecars)
    (hs : Publishing anchor pins metadata s) (hrooted : ∀ i < k, Rooted metadata i s) :
    (copySidecars anchor now sourceCas fault metadata.snapshotId k sidecars).Ensures
      (Publishing anchor pins metadata) (fun _ t => ∀ i, Rooted metadata i t) s := by
  induction sidecars generalizing k s with
  | nil =>
    have hlength := List.drop_eq_nil_iff.mp hdrop
    exact Prog.ensures_pure fun i hi => hrooted i (by omega) hi
  | cons sidecar sidecars ih =>
    have hk : k < metadata.sidecars.length := by
      by_contra hge
      rw [List.drop_of_length_le (by omega)] at hdrop
      cases hdrop
    rw [List.drop_eq_getElem_cons hk] at hdrop
    obtain ⟨rfl, hrest⟩ := List.cons.inj hdrop
    exact Prog.ensures_bind hs (copySidecar_ensures hk hs hrooted) fun _ t ht hnext =>
      ih hrest ht hnext

theorem copySnapshotSidecars_ensures {now : UInt64} {upload : SnapshotDataUpload}
    (hs : Publishing anchor pins metadata s) :
    (copySnapshotSidecarsToAnchorCas anchor now metadata upload).Ensures
      (Publishing anchor pins metadata) (fun _ t => ∀ i, Rooted metadata i t) s := by
  unfold copySnapshotSidecarsToAnchorCas
  split
  · rename_i hempty
    refine Prog.ensures_pure fun i hi => ?_
    rw [List.isEmpty_iff.mp hempty] at hi
    exact absurd hi (Nat.not_lt_zero i)
  · refine Prog.ensures_orFail_bind fun sourceCas _ => ?_
    refine Prog.ensures_ensure_bind fun _ => ?_
    exact copySidecars_ensures rfl hs fun i hi => absurd hi (Nat.not_lt_zero i)

theorem manifestStored_of_ensureSidecar {cas : CasStore} {sidecar : SnapshotSidecar}
    (h : ensureSidecarInAnchorCas anchor cas sidecar = .ok ()) :
    ManifestStored anchor.blake3 cas sidecar.casManifestId := by
  obtain ⟨_, _, h⟩ := bind_eq_ok_iff.mp h
  obtain ⟨manifest, hfetch, h⟩ := bind_eq_ok_iff.mp h
  obtain ⟨_, _, h⟩ := bind_eq_ok_iff.mp h
  have hmissing := missingChunks_eq_nil (List.isEmpty_iff.mp (require_eq_ok.mp h))
  exact ⟨manifest, hfetch, fun chunk hmem =>
    hmissing chunk.hash (List.mem_map_of_mem hmem)⟩

theorem ensureSidecars_ensures {anchorCas : Bool} (hs : Publishing anchor pins metadata s) :
    (ensureSnapshotSidecarsInAnchorCas anchor metadata anchorCas).Ensures
      (Publishing anchor pins metadata)
      (fun _ t => t = s ∧ ∀ sidecar ∈ metadata.sidecars,
        ManifestStored anchor.blake3 t.cas sidecar.casManifestId) s := by
  unfold ensureSnapshotSidecarsInAnchorCas
  split
  · rename_i hempty
    refine Prog.ensures_pure ⟨rfl, ?_⟩
    rw [List.isEmpty_iff.mp hempty]
    exact fun sidecar hmem => absurd hmem List.not_mem_nil
  · refine Prog.ensures_ensure_bind fun _ => ?_
    refine Prog.ensures_query_bind hs (Prog.ensures_ofExcept fun _ hchecked => ⟨rfl, ?_⟩)
    exact fun sidecar hmem =>
      manifestStored_of_ensureSidecar (checkEach_eq_ok.mp hchecked sidecar hmem)

/-- The rows after a canonical publish. -/
theorem mem_publishSnapshotCanonical {env : Env} {request : CanonicalPublishRequest}
    {db : MetadataDb} {row : SnapshotRow}
    (h : row ∈ (publishSnapshotCanonical env request db).2.snapshots) :
    row ∈ db.snapshots ∨ row = publishedRow db request := by
  rcases publishSnapshotCanonical_cases env request db with ⟨e, heq⟩ |
    ⟨lease, snapshots, auditEvents, -, hinsert, ⟨err, -, heq⟩ | ⟨result, -, heq⟩⟩
  · rw [heq] at h
    exact Or.inl h
  · rw [heq] at h
    exact (Table.mem_insert? hinsert).mp h
  · rw [heq] at h
    exact (Table.mem_insert? hinsert).mp h

/-- The row that is published is backed by the data that was verified before it. -/
theorem publishing_publish {env : Env} {request : CanonicalPublishRequest}
    (hpins : ∀ sidecar, pins sidecar sidecar.casManifestId)
    (hs : Publishing anchor pins request.metadata s)
    (hrefs : ∀ name ∈ expectedSnapshotRefs request.metadata.snapshotId, s.repo.Resolves name)
    (hrooted : ∀ i, Rooted request.metadata i s) (hdata : ∀ sidecar ∈ request.metadata.sidecars,
      ManifestStored anchor.blake3 s.cas sidecar.casManifestId) :
    Publishing anchor pins request.metadata
      { s with db := (publishSnapshotCanonical env request s.db).2 } where
  sound := {
    backed := by
      intro row hrow
      rcases mem_publishSnapshotCanonical hrow with hold | rfl
      · have hbacked := hs.sound.backed row hold
        exact ⟨hbacked.refs, hbacked.roots, hbacked.data⟩
      · refine ⟨hrefs, fun i hi => ?_, hdata⟩
        obtain ⟨root, hroot, hmanifest⟩ := hrooted i hi
        exact ⟨root, hroot, hmanifest ▸ hpins _⟩
    markers := hs.sound.markers }
  retries := by
    intro row hrow hsnapshot i hi hi'
    rcases mem_publishSnapshotCanonical hrow with hold | rfl
    · exact hs.retries row hold hsnapshot i hi hi'
    · exact hpins _

theorem finish_ensures {I : AnchorState → Prop} {snapshotId : String}
    (hI : ∀ markers : String → Option PendingSnapshotUpload,
      (∀ name marker, markers name = some marker → s.markers name = some marker) →
      I { s with markers }) :
    (finishSnapshotUpload snapshotId).Ensures I (fun _ _ => True) s := by
  refine Prog.ensures_ofExcept_bind fun _ _ => ⟨hI _ fun name marker hmarker => ?_, trivial⟩
  split at hmarker
  · cases hmarker
  · exact hmarker

/-- Wherever a publish is stopped, every stored snapshot is backed. -/
theorem publish_ensures {env : Env} {request : CanonicalPublishRequest}
    {upload : SnapshotDataUpload} (hpins : ∀ sidecar, pins sidecar sidecar.casManifestId)
    (hs : Publishing anchor pins request.metadata s) :
    (publishSnapshotCanonicalWithData anchor env request upload).Ensures
      (Publishing anchor pins request.metadata) (fun _ _ => True) s := by
  refine Prog.ensures_ofExcept_bind fun _ _ => ?_
  refine Prog.ensures_bind hs (mark_ensures hs) fun _ s₁ h₁ _ => ?_
  refine Prog.ensures_ensure_bind fun _ => ?_
  refine Prog.ensures_bind h₁ (import_ensures h₁) fun _ s₂ h₂ _ => ?_
  refine Prog.ensures_ensure_bind fun _ => ?_
  refine Prog.ensures_bind h₂ (copySnapshotSidecars_ensures h₂) fun _ s₃ h₃ hrooted => ?_
  refine Prog.ensures_ensure_bind fun _ => ?_
  refine ensures_check_bind h₃ fun _ hverified => ?_
  refine Prog.ensures_bind h₃ (ensureSidecars_ensures h₃) ?_
  rintro _ s₄ h₄ ⟨rfl, hdata⟩
  refine Prog.ensures_ensure_bind fun _ => ?_
  have hpublished : Publishing anchor pins request.metadata
      { s₄ with db := (publishSnapshotCanonical env request s₄.db).2 } :=
    publishing_publish hpins h₄ (resolves_of_verifySnapshotAvailable hverified) hrooted hdata
  refine Prog.ensures_update_bind hpublished ?_
  refine Prog.ensures_query_bind hpublished ?_
  split
  · refine Prog.ensures_bind hpublished (finish_ensures fun markers hmarkers =>
      hpublished.withMarkers fun name marker h => Or.inl (hmarkers name marker h))
      fun _ _ _ _ => ?_
    exact Prog.ensures_ofExcept fun _ _ => trivial
  · exact Prog.ensures_ofExcept fun _ _ => trivial

end Publishing

/-! ## Cleanup -/

section Cleanup

variable {anchor : Anchor} {pins : SnapshotSidecar → String → Prop} {s : AnchorState}

/-- What holds wherever a cleanup is stopped: the snapshot still has no row. -/
structure Cleaning (anchor : Anchor) (pins : SnapshotSidecar → String → Prop)
    (snapshotId : String) (s : AnchorState) : Prop where
  sound : Sound anchor.blake3 pins s
  notStored : ∀ row ∈ s.db.snapshots, row.snapshotId ≠ snapshotId

variable {snapshotId : String}

theorem Cleaning.deleteRef {name : String} (h : Cleaning anchor pins snapshotId s)
    (hname : name ∈ expectedSnapshotRefs snapshotId) :
    Cleaning anchor pins snapshotId { s with repo := s.repo.deleteRef name } where
  sound := by
    refine h.sound.shrink rfl rfl (fun row hrow name' hname' => ?_)
      (fun _ _ _ => rfl) fun _ => id
    refine resolves_deleteRef ?_
    rintro rfl
    exact h.notStored row hrow (expectedSnapshotRefs_disjoint hname' hname)
  notStored := h.notStored

theorem removeReachabilityRoots_ensures {rootIds : List String}
    (hs : Cleaning anchor pins snapshotId s)
    (hroots : ∀ rootId ∈ rootIds, ∃ i, rootId = sidecarReachabilityRootId snapshotId i) :
    (removeReachabilityRoots rootIds).Ensures (Cleaning anchor pins snapshotId)
      (fun _ _ => True) s := by
  induction rootIds generalizing s with
  | nil => exact Prog.ensures_pure trivial
  | cons rootId rootIds ih =>
    refine ensures_onCas_bind hs fun removed cas hremove => ?_
    have hcas := removeReachabilityRoot_eq hremove
    subst hcas
    obtain ⟨i, rfl⟩ := hroots rootId List.mem_cons_self
    have hremoved : Cleaning anchor pins snapshotId { s with cas := { s.cas with
        roots := fun name => if name = sidecarReachabilityRootId snapshotId i then none
          else s.cas.roots name } } := by
      refine ⟨hs.sound.shrink rfl rfl (fun _ _ _ _ => id) (fun row hrow j => ?_)
        fun _ => id, hs.notStored⟩
      refine if_neg fun hname => hs.notStored row hrow ?_
      exact (sidecarReachabilityRootId_inj hname).1
    have hrest := ih hremoved fun rootId hmem => hroots rootId (List.mem_cons_of_mem _ hmem)
    exact ⟨hremoved, Prog.ensures_bind hremoved hrest fun _ _ _ _ =>
      Prog.ensures_pure trivial⟩

theorem cleanupRoots_ensures {anchorCas : Bool} {marker : PendingSnapshotUpload}
    (hs : Cleaning anchor pins snapshotId s) (howner : MarkerOf snapshotId marker) :
    (cleanupRoots anchorCas marker).Ensures (Cleaning anchor pins snapshotId)
      (fun _ _ => True) s := by
  unfold cleanupRoots
  split
  · exact removeReachabilityRoots_ensures hs howner.roots
  · exact Prog.ensures_pure trivial

theorem refs_of_validatePendingMarker {marker : PendingSnapshotUpload}
    (h : validatePendingMarker anchor marker = .ok ()) :
    [marker.indexRef, marker.workRef] = expectedSnapshotRefs marker.snapshotId := by
  obtain ⟨_, _, h⟩ := bind_eq_ok_iff.mp h
  obtain ⟨_, _, h⟩ := bind_eq_ok_iff.mp h
  exact of_decide_eq_true (require_eq_ok.mp h)

theorem cleanup_ensures {anchorCas : Bool} (hs : Sound anchor.blake3 pins s)
    (hfree : (s.markers snapshotId).isSome →
      ∀ row ∈ s.db.snapshots, row.snapshotId ≠ snapshotId) :
    (cleanupPendingSnapshotUpload anchor anchorCas snapshotId).Ensures
      (Sound anchor.blake3 pins) (fun _ _ => True) s := by
  refine Prog.ensures_ofExcept_bind fun _ _ => ?_
  refine Prog.ensures_query_bind hs ?_
  cases hmarker : s.markers snapshotId with
  | none => exact Prog.ensures_pure trivial
  | some marker =>
    have howner := hs.markers snapshotId marker hmarker
    have hclean : Cleaning anchor pins snapshotId s := ⟨hs, hfree (by simp [hmarker])⟩
    refine Prog.ensures_mono (fun _ (ht : Cleaning anchor pins snapshotId _) => ht.sound) ?_
    refine Prog.ensures_ofExcept_bind fun _ hvalid => ?_
    have hrefs := refs_of_validatePendingMarker hvalid
    rw [howner.named] at hrefs
    have hindex := hclean.deleteRef (hrefs ▸ List.mem_cons_self :
      marker.indexRef ∈ expectedSnapshotRefs snapshotId)
    refine Prog.ensures_write_bind hindex ?_
    have hwork := hindex.deleteRef (hrefs ▸ List.mem_cons_of_mem _ List.mem_cons_self :
      marker.workRef ∈ expectedSnapshotRefs snapshotId)
    refine Prog.ensures_write_bind hwork ?_
    refine Prog.ensures_bind hwork (cleanupRoots_ensures hwork howner) fun _ t ht _ => ?_
    refine Prog.ensures_write_bind ⟨ht.sound.withMarkers fun name other hother => ?_,
      ht.notStored⟩ (Prog.ensures_pure trivial)
    split at hother
    · cases hother
    · exact Or.inl hother

end Cleanup

/-! ## What a cleanup removes -/

section Removal

variable {anchor : Anchor} {s : AnchorState} {refname : String}

/-- A reference that is gone. -/
def RefGone (refname : String) (s : AnchorState) : Prop := s.repo.refs refname = none

theorem not_backed_of_refGone {blake3 : Blake3} {pins : SnapshotSidecar → String → Prop}
    {row : SnapshotRow} (hmem : refname ∈ expectedSnapshotRefs row.snapshotId)
    (hgone : RefGone refname s) : ¬Backed blake3 pins s row := by
  intro hbacked
  obtain ⟨oid, hoid, -⟩ := hbacked.refs refname hmem
  rw [hgone] at hoid
  cases hoid

theorem refGone_deleteRef {name : String} (h : RefGone refname s) :
    RefGone refname { s with repo := s.repo.deleteRef name } := by
  unfold RefGone GitRepo.deleteRef
  dsimp only
  split
  · rfl
  · exact h

/-- Removing roots keeps what does not speak of the content-addressed store. -/
theorem cleanupRoots_onCas {I : AnchorState → Prop} {anchorCas : Bool}
    {marker : PendingSnapshotUpload} (hI : ∀ t cas, I t → I { t with cas }) (hs : I s) :
    (cleanupRoots anchorCas marker).Ensures I (fun _ _ => True) s := by
  unfold cleanupRoots
  split
  · generalize marker.casReachabilityRootIds = rootIds
    induction rootIds generalizing s with
    | nil => exact Prog.ensures_pure trivial
    | cons rootId rootIds ih =>
      refine ensures_onCas_bind hs fun removed cas _ => ⟨hI s cas hs, ?_⟩
      exact Prog.ensures_bind (hI s cas hs) (ih (hI s cas hs)) fun _ _ _ _ =>
        Prog.ensures_pure trivial
  · exact Prog.ensures_pure trivial

/-- A cleanup neither reads nor writes the database. -/
theorem cleanup_keeps_db {anchorCas : Bool} {snapshotId : String} {fault : Fault DevRelayError} :
    ((cleanupPendingSnapshotUpload anchor anchorCas snapshotId).exec fault 0 s).2.db = s.db := by
  refine Prog.exec_ensures (I := fun t => t.db = s.db) (Q := fun _ _ => True)
    fault 0 _ s rfl ?_
  refine Prog.ensures_ofExcept_bind fun _ _ => ?_
  refine Prog.ensures_query_bind rfl ?_
  cases s.markers snapshotId with
  | none => exact Prog.ensures_pure trivial
  | some marker =>
    refine Prog.ensures_ofExcept_bind fun _ _ => ?_
    refine Prog.ensures_write_bind rfl (Prog.ensures_write_bind rfl ?_)
    refine Prog.ensures_bind rfl (cleanupRoots_onCas (fun t cas ht => ht) rfl)
      fun _ t ht _ => ?_
    exact Prog.ensures_write_bind ht (Prog.ensures_pure trivial)

/-- A cleanup that gets past its first removal takes the data of the snapshot its marker
is about, whether the snapshot has a row or not. -/
theorem cleanup_unbacks {anchorCas : Bool} {snapshotId : String}
    {marker : PendingSnapshotUpload} {fault : Fault DevRelayError}
    {pins : SnapshotSidecar → String → Prop} {row : SnapshotRow}
    (hid : validatePendingSnapshotId snapshotId = .ok ())
    (hmarker : s.markers snapshotId = some marker)
    (hvalid : validatePendingMarker anchor marker = .ok ())
    (hrow : row.snapshotId = marker.snapshotId) (h₀ : fault 0 = none) (h₁ : fault 1 = none) :
    ¬Backed anchor.blake3 pins
      ((cleanupPendingSnapshotUpload anchor anchorCas snapshotId).exec fault 0 s).2 row := by
  have hrefs := refs_of_validatePendingMarker hvalid
  have hgone : RefGone marker.indexRef
      ((cleanupPendingSnapshotUpload anchor anchorCas snapshotId).exec fault 0 s).2 := by
    unfold cleanupPendingSnapshotUpload
    rw [hid, Prog.ofExcept_ok_bind, Prog.exec_query_bind h₀, hmarker]
    dsimp only
    rw [hvalid, Prog.ofExcept_ok_bind, onRepo, Prog.exec_write_bind h₁]
    have hdeleted : RefGone marker.indexRef
        { s with repo := s.repo.deleteRef marker.indexRef } := if_pos rfl
    refine Prog.exec_ensures (Q := fun _ _ => True) fault 2 _ _ hdeleted ?_
    refine Prog.ensures_write_bind (refGone_deleteRef hdeleted) ?_
    refine Prog.ensures_bind (refGone_deleteRef hdeleted)
      (cleanupRoots_onCas (fun _ _ ht => ht) (refGone_deleteRef hdeleted)) fun _ t ht _ => ?_
    exact Prog.ensures_write_bind ht (Prog.ensures_pure trivial)
  refine not_backed_of_refGone ?_ hgone
  rw [hrow, ← hrefs]
  exact List.mem_cons_self

end Removal

/-! ## Runs -/

inductive UploadOp where
  | publishSnapshotCanonicalWithData (env : Env) (request : CanonicalPublishRequest)
      (upload : SnapshotDataUpload)
  | finishSnapshotUpload (snapshotId : String)
  | cleanupPendingSnapshotUpload (anchorCas : Bool) (snapshotId : String)

/-- An operation with the statement in front of which it is stopped, if it is. -/
structure UploadCall where
  op : UploadOp
  fault : Fault DevRelayError

def uploadStep (anchor : Anchor) (s : AnchorState) (call : UploadCall) : AnchorState :=
  match call.op with
  | .publishSnapshotCanonicalWithData env request upload =>
    ((publishSnapshotCanonicalWithData anchor env request upload).exec call.fault 0 s).2
  | .finishSnapshotUpload snapshotId =>
    ((finishSnapshotUpload snapshotId).exec call.fault 0 s).2
  | .cleanupPendingSnapshotUpload anchorCas snapshotId =>
    ((cleanupPendingSnapshotUpload anchor anchorCas snapshotId).exec call.fault 0 s).2

/-- A cleanup is for a snapshot without a row, or finds no marker. -/
def CleansOrphan (s : AnchorState) (call : UploadCall) : Prop :=
  ∀ anchorCas snapshotId, call.op = .cleanupPendingSnapshotUpload anchorCas snapshotId →
    (s.markers snapshotId).isSome → ∀ row ∈ s.db.snapshots, row.snapshotId ≠ snapshotId

/-- A publish of a snapshot that has a row has the sidecars of that row. -/
def RetriesStored (pins : SnapshotSidecar → String → Prop) (s : AnchorState)
    (call : UploadCall) : Prop :=
  ∀ env request upload,
    call.op = .publishSnapshotCanonicalWithData env request upload →
      Retries pins request.metadata s.db

/-- One call, wherever it is stopped. -/
theorem sound_uploadStep {anchor : Anchor} {pins : SnapshotSidecar → String → Prop}
    (hpins : ∀ sidecar, pins sidecar sidecar.casManifestId) {s : AnchorState}
    {call : UploadCall} (hs : Sound anchor.blake3 pins s) (horphan : CleansOrphan s call)
    (hretries : RetriesStored pins s call) :
    Sound anchor.blake3 pins (uploadStep anchor s call) := by
  obtain ⟨op, fault⟩ := call
  cases op with
  | publishSnapshotCanonicalWithData env request upload =>
    have hpublishing : Publishing anchor pins request.metadata s :=
      ⟨hs, hretries env request upload rfl⟩
    have hkept := Prog.exec_ensures fault 0
      (publishSnapshotCanonicalWithData anchor env request upload) s hpublishing
      (publish_ensures hpins hpublishing)
    exact hkept.sound
  | finishSnapshotUpload snapshotId =>
    refine Prog.exec_ensures fault 0 _ s hs (finish_ensures fun markers hmarkers => ?_)
    exact hs.withMarkers fun name marker h => Or.inl (hmarkers name marker h)
  | cleanupPendingSnapshotUpload anchorCas snapshotId =>
    exact Prog.exec_ensures fault 0 _ s hs
      (cleanup_ensures hs (horphan anchorCas snapshotId rfl))

theorem sound_uploadRun {anchor : Anchor} {pins : SnapshotSidecar → String → Prop}
    (hpins : ∀ sidecar, pins sidecar sidecar.casManifestId) {start : AnchorState}
    {calls : List UploadCall} (hstart : Sound anchor.blake3 pins start)
    (horphan : ∀ i, (hi : i < calls.length) →
      CleansOrphan (stateAt (uploadStep anchor) start calls i) calls[i])
    (hretries : ∀ i, (hi : i < calls.length) →
      RetriesStored pins (stateAt (uploadStep anchor) start calls i) calls[i]) (n : Nat) :
    Sound anchor.blake3 pins (stateAt (uploadStep anchor) start calls n) :=
  stateAt_induction hstart
    (fun i hi hs => sound_uploadStep hpins hs (horphan i hi) (hretries i hi)) n

/-- A root may name any manifest. -/
def anyManifest : SnapshotSidecar → String → Prop := fun _ _ => True

/-- A root names the manifest of its sidecar. -/
def ownManifest : SnapshotSidecar → String → Prop := fun sidecar manifestId =>
  manifestId = sidecar.casManifestId

theorem Sound.any {blake3 : Blake3} {pins : SnapshotSidecar → String → Prop}
    {s : AnchorState} (h : Sound blake3 pins s) : Sound blake3 anyManifest s where
  backed := fun row hrow =>
    have hbacked := h.backed row hrow
    { refs := hbacked.refs
      roots := fun i hi =>
        have ⟨root, hroot, _⟩ := hbacked.roots i hi
        ⟨root, hroot, trivial⟩
      data := hbacked.data }
  markers := h.markers

/-- In every run of publishes, finishes and cleanups, each stopped anywhere, whose
cleanups are for snapshots that have no row: every stored snapshot has its references,
its roots and its data in every state of the run.  If the publishes of stored snapshots
are retries, each root names the manifest of its sidecar. -/
theorem stored_snapshots_backed (anchor : Anchor) (start : AnchorState)
    (calls : List UploadCall) (hstart : Sound anchor.blake3 ownManifest start)
    (horphan : ∀ i, (hi : i < calls.length) →
      CleansOrphan (stateAt (uploadStep anchor) start calls i) calls[i]) (n : Nat) :
    (∀ row ∈ (stateAt (uploadStep anchor) start calls n).db.snapshots,
      Backed anchor.blake3 anyManifest (stateAt (uploadStep anchor) start calls n) row) ∧
    ((∀ i, (hi : i < calls.length) →
        RetriesStored ownManifest (stateAt (uploadStep anchor) start calls i) calls[i]) →
      ∀ row ∈ (stateAt (uploadStep anchor) start calls n).db.snapshots,
        Backed anchor.blake3 ownManifest (stateAt (uploadStep anchor) start calls n)
          row) := by
  constructor
  · have hsound := sound_uploadRun (fun _ => trivial) hstart.any horphan
      (fun _ _ _ _ _ _ _ _ _ _ _ _ => trivial) n
    exact hsound.backed
  · intro hretries
    have hown : ∀ sidecar : SnapshotSidecar,
        ownManifest sidecar sidecar.casManifestId := fun _ => rfl
    exact (sound_uploadRun hown hstart horphan hretries n).backed

/-! ## A crash behind the commit -/

def demoAnchor : Anchor where
  repo := ⟨"project-1", .default⟩
  blake3 := {
    hex := fun _ => "0000000000000000000000000000000000000000000000000000000000000000"
    hex_length := fun _ => by decide
    hex_digits := fun _ => by decide }
  countObjects := fun _ => ⟨0, 0, 0⟩

/-- The demo store, with an empty repository and an empty content-addressed store. -/
def demoAnchorState : AnchorState where
  db := demoStore
  repo := .empty
  markers := fun _ => none
  cas := .empty

def demoSnapshotId : String := "s1_000000000000000000000001"

def demoSource : GitRepo where
  refs := fun name =>
    if name ∈ expectedSnapshotRefs demoSnapshotId then
      some "00000000000000000000000000000000000000aa"
    else none
  objects := fun _ => some ⟨"commit", 200⟩

def demoUpload : UploadOp :=
  .publishSnapshotCanonicalWithData (demoEnv 100) (demoPublish demoSnapshotId 7 none)
    ⟨demoSource, none, false, none⟩

/-- The process dies in front of statement `n`. -/
def crashAt (n : Nat) : Fault DevRelayError := fun k =>
  if k = n then some (.io "crash") else none

/-- The upload dies behind the commit of the row and in front of the removal of the
marker; then the pending upload is cleaned up. -/
def demoCrash : List UploadCall := [
  ⟨demoUpload, crashAt 8⟩,
  ⟨.cleanupPendingSnapshotUpload false demoSnapshotId, noFault⟩]

theorem demoAnchorState_sound {pins : SnapshotSidecar → String → Prop} :
    Sound demoAnchor.blake3 pins demoAnchorState := sound_of_fresh rfl fun _ => rfl

/-- The states of the demo run. -/
abbrev demoAt (n : Nat) : AnchorState :=
  stateAt (uploadStep demoAnchor) demoAnchorState demoCrash n

theorem demoAt_one_stored : ((demoAt 1).db.snapshots.lookup demoSnapshotId).isSome ∧
    (demoAt 1).markers demoSnapshotId =
      some (pendingUploadFor 100 (demoMetadata demoSnapshotId none)) := by
  decide +kernel

/-- The upload dies in front of its row; the next start of the agent cleans up what it left,
and the upload is made again. -/
def demoRetry : List UploadCall := [
  ⟨demoUpload, crashAt 7⟩,
  ⟨.cleanupPendingSnapshotUpload false demoSnapshotId, noFault⟩,
  ⟨demoUpload, noFault⟩]

/-- The states of the run with the retry. -/
abbrev retryAt (n : Nat) : AnchorState :=
  stateAt (uploadStep demoAnchor) demoAnchorState demoRetry n

theorem retryAt_rows : (∀ i < 3, (retryAt i).db.snapshots.rows = []) ∧
    ((retryAt 1).markers demoSnapshotId).isSome ∧
    ((retryAt 3).db.snapshots.lookup demoSnapshotId).isSome := by
  decide +kernel

/-- The cleanup finds the marker of the first upload, and the second one leaves the snapshot
backed. -/
theorem stored_snapshots_backed_demo :
    ((retryAt 1).markers demoSnapshotId).isSome ∧
    ((retryAt 3).db.snapshots.lookup demoSnapshotId).isSome ∧
    ∀ row ∈ (retryAt 3).db.snapshots, Backed demoAnchor.blake3 ownManifest (retryAt 3) row := by
  obtain ⟨hrows, hmarker, hstored⟩ := retryAt_rows
  have horphan : ∀ i, (hi : i < demoRetry.length) → CleansOrphan (retryAt i) demoRetry[i] := by
    intro i hi _ _ _ _ row hrow
    change row ∈ (retryAt i).db.snapshots.rows at hrow
    rw [hrows i hi] at hrow
    cases hrow
  have hretries : ∀ i, (hi : i < demoRetry.length) →
      RetriesStored ownManifest (retryAt i) demoRetry[i] := by
    intro i hi _ _ _ _ row hrow
    change row ∈ (retryAt i).db.snapshots.rows at hrow
    rw [hrows i hi] at hrow
    cases hrow
  refine ⟨hmarker, hstored, ?_⟩
  unfold retryAt
  have hbacked := stored_snapshots_backed demoAnchor demoAnchorState demoRetry
    demoAnchorState_sound horphan 3
  exact hbacked.2 hretries

theorem demoAt_one : demoAt 1 = uploadStep demoAnchor demoAnchorState ⟨demoUpload, crashAt 8⟩ :=
  stateAt_succ (by decide)

theorem demoAt_two : demoAt 2 =
    ((cleanupPendingSnapshotUpload demoAnchor false demoSnapshotId).exec noFault 0
      (demoAt 1)).2 :=
  stateAt_succ (by decide)

theorem demoAt_one_sound : Sound demoAnchor.blake3 ownManifest (demoAt 1) := by
  have horphan : CleansOrphan demoAnchorState ⟨demoUpload, crashAt 8⟩ := by
    intro anchorCas snapshotId hop
    cases hop
  have hretries : RetriesStored ownManifest demoAnchorState ⟨demoUpload, crashAt 8⟩ :=
    fun env request upload _ row hrow => absurd hrow List.not_mem_nil
  have hown : ∀ sidecar : SnapshotSidecar,
      ownManifest sidecar sidecar.casManifestId := fun _ => rfl
  rw [demoAt_one]
  exact sound_uploadStep hown demoAnchorState_sound horphan hretries

/-- The snapshot has a row and is backed when its upload dies; the cleanup takes its
references. -/
theorem cleanup_after_commit_unbacks :
    ∃ row ∈ (demoAt 2).db.snapshots,
      Backed demoAnchor.blake3 ownManifest (demoAt 1) row ∧
      ¬Backed demoAnchor.blake3 anyManifest (demoAt 2) row := by
  obtain ⟨hstored, hmarker⟩ := demoAt_one_stored
  have hid : validatePendingSnapshotId demoSnapshotId = .ok () := by decide
  have hvalid : validatePendingMarker demoAnchor
      (pendingUploadFor 100 (demoMetadata demoSnapshotId none)) = .ok () := by
    decide
  have hbacked := demoAt_one_sound.backed
  rw [demoAt_two]
  generalize demoAt 1 = before at hstored hmarker hbacked ⊢
  obtain ⟨row, hrow⟩ := Option.isSome_iff_exists.mp hstored
  have hmem := Table.mem_of_lookup hrow
  refine ⟨row, ?_, hbacked row hmem,
    cleanup_unbacks hid hmarker hvalid (Table.lookup_key hrow) rfl rfl⟩
  rwa [cleanup_keeps_db]

end DevRelay.Upload
