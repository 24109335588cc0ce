import DevRelay.Snapshot.CapsuleHash

/-!
# What the bytes of the state hash show

The fields are free of zero bytes and every list and optional field is told by its tag,
so the bytes that are hashed determine the state, up to the order of the four lists.
The parts are read from the innermost to the whole, each with the tags that can follow it.
-/

namespace DevRelay.Snapshot

open DevRelay.Core DevRelay.Lib

/-! ## The texts of each part -/

def GitOperationProgress.texts (self : GitOperationProgress) : List String :=
  self.originalHeadOid.toList ++ self.ontoOid.toList ++ self.headName.toList ++ self.todo ++
    self.done

def GitOperationMetadata.texts (self : GitOperationMetadata) : List String :=
  self.currentHeadOid :: self.operationOids ++ self.originalHeadOid.toList ++
    self.progress.toList.flatMap GitOperationProgress.texts

def UnmergedIndexEntry.texts (self : UnmergedIndexEntry) : List String :=
  self.path :: self.stages.flatMap fun stage => [stage.mode, stage.oid]

def CapturedCapsule.texts (self : CapturedCapsule) : List String :=
  self.operation.texts ++ self.unmergedEntries.flatMap UnmergedIndexEntry.texts ++
    self.worktreeFiles.map ConflictWorktreeFile.path

/-- The texts among the hashed fields. -/
def CapturedMetadata.texts (self : CapturedMetadata) : List String :=
  [self.projectId, self.headOid, self.indexTreeOid, self.workTreeOid] ++
    self.operationCapsule.toList.flatMap CapturedCapsule.texts ++ self.includedUntracked ++
    self.excluded.flatMap excludedFields ++
    (self.sidecars.flatMap fun sidecar =>
      [sidecar.logicalPath, sidecar.fileMode, sidecar.classification, sidecar.rootHash,
        sidecar.casManifestId]) ++
    self.childSnapshots.flatMap childFields

def AllNulFree (texts : List String) : Prop := ∀ text ∈ texts, NulFree text

instance (texts : List String) : Decidable (AllNulFree texts) :=
  inferInstanceAs (Decidable (∀ text ∈ texts, NulFree text))

theorem AllNulFree.of_subset {texts texts' : List String} (h : AllNulFree texts)
    (hsub : ∀ text ∈ texts', text ∈ texts) : AllNulFree texts' :=
  fun text htext => h text (hsub text htext)

/-- Each value of a field that is hashed is free of zeros when all texts of the whole are. -/
theorem AllNulFree.flatMap {γ : Type} {values : List γ} {texts : γ → List String}
    (h : AllNulFree (values.flatMap texts)) (value : γ) (hmem : value ∈ values) :
    AllNulFree (texts value) :=
  h.of_subset fun _ htext => List.mem_flatMap.mpr ⟨value, hmem, htext⟩

/-! ## Fields and groups -/

/-- The rest is empty or begins with one of these tags. -/
abbrev Follow (tags : List String) : List UInt8 → Prop := Opens 0 (tags.map utf8)

/-- Groups that are told by their tags. -/
abbrev TagGroups {γ δ : Type} (tags after : List String) (ok : γ → Prop)
    (code : γ → List UInt8) (view : γ → δ) : Prop :=
  Groups 0 (tags.map utf8) (after.map utf8) ok code view

section Fields

variable {β γ δ ε : Type} {ok : γ → Prop} {tags after : List String}

theorem decodes_textCode (ok : γ → Prop) (fields : γ → List String)
    (hlen : ∀ a b, (fields a).length = (fields b).length)
    (hfree : ∀ c, ok c → AllNulFree (fields c)) :
    Decodes anyRest ok (fun c => textCode (fields c)) fields := by
  have hframe := decodes_frame (0 : UInt8) ok (fun c => (fields c).map utf8)
    (fun a b => by rw [List.length_map, List.length_map]; exact hlen a b)
    (fun c hc f hf => by
      obtain ⟨text, htext, heq⟩ := List.mem_map.mp hf
      rw [← heq]
      exact zero_notMem_utf8 (hfree c hc text htext))
  exact hframe.weaken fun a b _ _ h => List.map_injective_iff.mpr utf8_injective h

/-- Whatever tags follow. -/
theorem decodes_follow {code : γ → List UInt8} {view : γ → δ}
    (h : Decodes anyRest ok code view) : Decodes (Follow tags) ok code view :=
  h.mono fun _ _ => trivial

theorem decodes_oneText : Decodes (Follow tags) NulFree oneText fun text => text := by
  have hfields := decodes_textCode NulFree (fun text => [text])
    (fun _ _ => rfl) (fun text htext t ht => List.mem_singleton.mp ht ▸ htext)
  exact decodes_follow (hfields.weaken fun a b _ _ h => (List.cons.inj h).1)

theorem decodes_oneNumber :
    Decodes (Follow tags) (fun _ => True) oneNumber fun number => number := by
  have hfields := decodes_textCode (fun _ : UInt64 => True)
    (fun number => [toString number]) (fun _ _ => rfl)
    (fun number _ t ht => List.mem_singleton.mp ht ▸ nulFree_toString number.toNat)
  refine decodes_follow (hfields.weaken fun a b _ _ h => ?_)
  exact UInt64.toNat_inj.mp (toString_nat_injective (List.cons.inj h).1)

theorem decodes_contentsCode :
    Decodes anyRest (fun contents : List UInt8 => contents.length < usizeBound) contentsCode
      fun contents => contents := by
  intro a b r s ha hb _ _ heq
  simp only [contentsCode, List.append_assoc] at heq
  have hlengths := List.append_inj heq (by rw [length_toLeBytes, length_toLeBytes])
  have hcount := toLeBytes_injective (ByteArray.ext (Array.toList_inj.mp hlengths.1))
  have hlen : a.length = b.length := by
    have hnat := congrArg UInt64.toNat hcount
    rw [UInt64.toNat_ofNat', UInt64.toNat_ofNat'] at hnat
    calc
      a.length = a.length % usizeBound := (Nat.mod_eq_of_lt ha).symm
      _ = b.length % usizeBound := hnat
      _ = b.length := Nat.mod_eq_of_lt hb
  have hcontents := List.append_inj hlengths.2 hlen
  exact ⟨hcontents.1, List.append_cancel_left hcontents.2⟩

theorem tags_free {tags : List String} (h : AllNulFree tags) :
    ∀ w ∈ tags.map utf8, (0 : UInt8) ∉ w := by
  intro w hw
  obtain ⟨text, htext, heq⟩ := List.mem_map.mp hw
  rw [← heq]
  exact zero_notMem_utf8 (h text htext)

theorem tag_new {tag : String} (h : tag ∉ tags) : utf8 tag ∉ tags.map utf8 := by
  intro hmem
  obtain ⟨text, htext, heq⟩ := List.mem_map.mp hmem
  exact h (utf8_injective heq ▸ htext)

variable {okEntry : β → Prop} {entry : β → List UInt8} {viewEntry : β → ε}
  {code : γ → List UInt8} {view : γ → δ}

theorem TagGroups.entries (hrest : TagGroups tags after ok code view) (tag : String)
    (hentry : Decodes (Follow (tag :: tags)) okEntry entry viewEntry)
    (htags : AllNulFree (tag :: tags)) (hnew : tag ∉ tags) (list : γ → List β)
    (hok : ∀ c, ok c → ∀ x ∈ list c, okEntry x) :
    TagGroups (tag :: tags) after ok (fun c => (list c).flatMap (tagCode tag entry) ++ code c)
      fun c => ((list c).map viewEntry, view c) :=
  Groups.entries hentry hrest (tags_free htags) (tag_new hnew) list hok

theorem TagGroups.optional (hrest : TagGroups tags after ok code view) (tag : String)
    (hentry : Decodes (Follow (tag :: tags)) okEntry entry viewEntry)
    (htags : AllNulFree (tag :: tags)) (hnew : tag ∉ tags) (value : γ → Option β)
    (hok : ∀ c, ok c → ∀ x ∈ value c, okEntry x) :
    TagGroups (tag :: tags) after ok
      (fun c => (value c).toList.flatMap (tagCode tag entry) ++ code c)
      fun c => ((value c).map viewEntry, view c) :=
  Groups.optional hentry hrest (tags_free htags) (tag_new hnew) value hok

end Fields

/-! ## The parts -/

/-- The tags behind a capsule; the option is read like a list, so its own is one of them. -/
def afterCapsule : List String :=
  ["operation-capsule", "included", "excluded", "sidecar", "child-snapshot"]

def afterUnmergedEntry : List String :=
  "unmerged-entry" :: "conflict-worktree-file" :: afterCapsule

def afterProgress : List String := "operation-progress" :: afterUnmergedEntry

def afterStep : List String := "progress-current-step" :: afterProgress

theorem decodes_step : Decodes (Follow afterStep) (fun _ => True) stepCode fun step => step := by
  have hnone : TagGroups afterStep afterStep (fun _ : GitOperationStep => True) (fun _ => [])
    fun _ => () := Groups.none
  have htotal := hnone.optional "total" decodes_oneNumber (by decide) (by decide)
    GitOperationStep.total fun _ _ _ _ => trivial
  have hcurrent := htotal.optional "current" decodes_oneNumber (by decide) (by decide)
    GitOperationStep.current fun _ _ _ _ => trivial
  apply hcurrent.decodes.weaken
  intro a b _ _ h
  cases a
  cases b
  simp_all

theorem decodes_progress :
    Decodes (Follow afterProgress) (fun progress => AllNulFree progress.texts) progressCode
      fun progress => progress := by
  have hmem : ∀ progress : GitOperationProgress, AllNulFree progress.texts →
      (∀ text ∈ progress.originalHeadOid, NulFree text) ∧
      (∀ text ∈ progress.ontoOid, NulFree text) ∧ (∀ text ∈ progress.headName, NulFree text) ∧
      (∀ text ∈ progress.todo, NulFree text) ∧ ∀ text ∈ progress.done, NulFree text := by
    intro progress h
    simp only [AllNulFree, GitOperationProgress.texts, List.forall_mem_append,
      Option.mem_toList] at h
    obtain ⟨⟨⟨⟨hhead, honto⟩, hname⟩, htodo⟩, hdone⟩ := h
    exact ⟨hhead, honto, hname, htodo, hdone⟩
  have hnone : TagGroups afterProgress afterProgress
    (fun progress : GitOperationProgress => AllNulFree progress.texts) (fun _ => []) fun _ => () :=
      Groups.none
  have hstep := hnone.optional "progress-current-step" decodes_step (by decide)
    (by decide) GitOperationProgress.currentStep fun _ _ _ _ => trivial
  have hdone := hstep.entries "progress-done" decodes_oneText (by decide) (by decide)
    GitOperationProgress.done fun progress h => (hmem progress h).2.2.2.2
  have htodo := hdone.entries "progress-todo" decodes_oneText (by decide) (by decide)
    GitOperationProgress.todo fun progress h => (hmem progress h).2.2.2.1
  have hname := htodo.optional "progress-head-name" decodes_oneText (by decide)
    (by decide) GitOperationProgress.headName fun progress h => (hmem progress h).2.2.1
  have honto := hname.optional "progress-onto" decodes_oneText (by decide) (by decide)
    GitOperationProgress.ontoOid fun progress h => (hmem progress h).2.1
  have hhead := honto.optional "progress-original-head" decodes_oneText (by decide)
    (by decide) GitOperationProgress.originalHeadOid fun progress h => (hmem progress h).1
  have hinteractive : Decodes anyRest
      (fun progress : GitOperationProgress => AllNulFree progress.texts)
      (fun progress => textCode [if progress.interactive then "true" else "false"])
      fun progress => progress.interactive := by
    have hfields := decodes_textCode
      (fun progress : GitOperationProgress => AllNulFree progress.texts)
      (fun progress => [if progress.interactive then "true" else "false"])
      (fun _ _ => rfl) (fun progress _ => by cases progress.interactive <;> decide)
    apply hfields.weaken
    intro a b _ _ h
    cases ha : a.interactive <;> cases hb : b.interactive <;> simp_all
  have hall := hinteractive.append hhead.decodes fun _ _ _ _ => trivial
  apply hall.weaken
  intro a b _ _ h
  cases a
  cases b
  simp_all

theorem decodes_stage :
    Decodes anyRest (fun stage => AllNulFree [stage.mode, stage.oid])
      (fun stage => textCode (stageFields stage)) fun stage => stage := by
  have hfields := decodes_textCode (fun stage => AllNulFree [stage.mode, stage.oid])
    stageFields (fun _ _ => rfl) fun stage h text htext => by
      rcases List.mem_cons.mp htext with hstage | hrest
      · rw [hstage]
        exact nulFree_toString stage.stage.toNat
      · exact h text hrest
  apply hfields.weaken
  intro a b _ _ h
  simp only [stageFields, List.cons.injEq, and_true] at h
  obtain ⟨hstage, hmode, hoid⟩ := h
  have hnumber : a.stage = b.stage := UInt8.toNat_inj.mp (toString_nat_injective hstage)
  cases a
  cases b
  simp_all

theorem decodes_unmergedEntry :
    Decodes (Follow afterUnmergedEntry) (fun entry => AllNulFree entry.texts) unmergedEntryCode
      fun entry => entry := by
  have hnone : TagGroups afterUnmergedEntry afterUnmergedEntry
    (fun entry : UnmergedIndexEntry => AllNulFree entry.texts) (fun _ => []) fun _ => () :=
      Groups.none
  have hstages := hnone.entries "stage" (decodes_follow decodes_stage) (by decide)
    (by decide) UnmergedIndexEntry.stages
    (fun entry h stage hstage =>
      (h.of_subset fun _ => List.mem_cons_of_mem _).flatMap stage hstage)
  have hpath := decodes_textCode (fun entry : UnmergedIndexEntry => AllNulFree entry.texts)
    (fun entry => [entry.path]) (fun _ _ => rfl)
    (fun entry h => h.of_subset fun text htext =>
      List.mem_singleton.mp htext ▸ List.mem_cons_self)
  have hall := hpath.append hstages.decodes fun _ _ _ _ => trivial
  apply hall.weaken
  intro a b _ _ h
  cases a
  cases b
  simp_all

theorem decodes_worktreeFile :
    Decodes anyRest (fun file => NulFree file.path ∧ file.contents.length < usizeBound)
      worktreeFileCode fun file => file := by
  have hpath := decodes_textCode
    (fun file : ConflictWorktreeFile =>
      NulFree file.path ∧ file.contents.length < usizeBound)
    (fun file => [file.path]) (fun _ _ => rfl)
    (fun file h text htext => List.mem_singleton.mp htext ▸ h.1)
  have hcontents := decodes_contentsCode.part
    (fun file : ConflictWorktreeFile =>
      NulFree file.path ∧ file.contents.length < usizeBound)
    ConflictWorktreeFile.contents (fun _ h => h.2)
  have hall := hpath.append hcontents fun _ _ _ _ => trivial
  apply hall.weaken
  intro a b _ _ h
  cases a
  cases b
  simp_all

theorem decodes_capsule :
    Decodes (Follow afterCapsule) (fun capsule => AllNulFree capsule.texts) capsuleCode
      fun capsule => capsule := by
  have hmem : ∀ capsule : CapturedCapsule, AllNulFree capsule.texts →
      AllNulFree [operationKindLabel capsule.operation.kind, capsule.operation.currentHeadOid] ∧
      (∀ oid ∈ capsule.operation.operationOids, NulFree oid) ∧
      (∀ oid ∈ capsule.operation.originalHeadOid, NulFree oid) ∧
      (∀ progress ∈ capsule.operation.progress, AllNulFree progress.texts) ∧
      (∀ entry ∈ capsule.unmergedEntries, AllNulFree entry.texts) ∧
      ∀ file ∈ capsule.worktreeFiles,
        NulFree file.path ∧ file.contents.length < usizeBound := by
    intro capsule h
    have hkind : NulFree (operationKindLabel capsule.operation.kind) := by
      cases capsule.operation.kind <;> decide
    simp only [AllNulFree, CapturedCapsule.texts, GitOperationMetadata.texts,
      List.forall_mem_append, List.cons_append, List.forall_mem_cons, Option.mem_toList,
      List.mem_flatMap, List.mem_map, forall_exists_index, and_imp, forall_apply_eq_imp_iff₂] at h ⊢
    obtain ⟨hcurrent, ⟨⟨⟨hoids, horiginal⟩, hprogress⟩, hentries⟩, hfiles⟩ := h
    exact ⟨⟨hkind, hcurrent, fun text htext => absurd htext List.not_mem_nil⟩, hoids, horiginal,
      fun progress hmem text htext => hprogress text progress hmem htext,
      fun entry hmem text htext => hentries text entry hmem htext,
      fun file hmem => ⟨hfiles file hmem, capsule.contentsFit file hmem⟩⟩
  have hnone : TagGroups afterCapsule afterCapsule
    (fun capsule : CapturedCapsule => AllNulFree capsule.texts) (fun _ => []) fun _ => () :=
      Groups.none
  have hfiles := hnone.entries "conflict-worktree-file"
    (decodes_follow decodes_worktreeFile) (by decide) (by decide)
    (fun capsule : CapturedCapsule => capsule.worktreeFiles)
    fun capsule h => (hmem capsule h).2.2.2.2.2
  have hentries := hfiles.entries "unmerged-entry" decodes_unmergedEntry (by decide)
    (by decide) CapturedCapsule.unmergedEntries fun capsule h => (hmem capsule h).2.2.2.2.1
  have hprogress := hentries.optional "operation-progress" decodes_progress (by decide)
    (by decide) (fun capsule : CapturedCapsule => capsule.operation.progress)
    fun capsule h => (hmem capsule h).2.2.2.1
  have horiginal := hprogress.optional "original-head" decodes_oneText (by decide)
    (by decide) (fun capsule : CapturedCapsule => capsule.operation.originalHeadOid)
    fun capsule h => (hmem capsule h).2.2.1
  have hoids := horiginal.entries "operation-oid" decodes_oneText (by decide)
    (by decide) (fun capsule : CapturedCapsule => capsule.operation.operationOids)
    fun capsule h => (hmem capsule h).2.1
  have hfields := decodes_textCode
    (fun capsule : CapturedCapsule => AllNulFree capsule.texts)
    (fun capsule =>
      [operationKindLabel capsule.operation.kind, capsule.operation.currentHeadOid])
    (fun _ _ => rfl) (fun capsule h => (hmem capsule h).1)
  have hall := hfields.append hoids.decodes fun _ _ _ _ => trivial
  apply hall.weaken
  intro a b _ _ h
  simp only [Prod.mk.injEq, List.cons.injEq, and_true, List.map_id', Option.map_id',
    operationKindLabel_injective.eq_iff] at h
  obtain ⟨⟨hkind, hcurrent⟩, hoids, horiginal, hprogress, hentries, hfiles⟩ := h
  obtain ⟨⟨files⟩, ⟨kind, current, oids, original, progress⟩, entries, hfit⟩ := a
  obtain ⟨⟨files'⟩, ⟨kind', current', oids', original', progress'⟩, entries', hfit'⟩ := b
  simp_all

/-! ## The whole -/

/-- The hashed fields are the same, up to the order of the four lists. -/
structure SameHashedState (m n : CapturedMetadata) : Prop where
  projectId : m.projectId = n.projectId
  headOid : m.headOid = n.headOid
  indexTreeOid : m.indexTreeOid = n.indexTreeOid
  workTreeOid : m.workTreeOid = n.workTreeOid
  operationCapsule : m.operationCapsule = n.operationCapsule
  includedUntracked : m.includedUntracked.Perm n.includedUntracked
  excluded : (m.excluded.map fun item => (item.path, item.reason)).Perm
    (n.excluded.map fun item => (item.path, item.reason))
  sidecars : m.sidecars.Perm n.sidecars
  childSnapshots : m.childSnapshots.Perm n.childSnapshots

theorem decodes_excluded :
    Decodes anyRest (fun item => AllNulFree (excludedFields item))
      (fun item => textCode (excludedFields item)) fun item => (item.path, item.reason) := by
  have hfields := decodes_textCode (fun item => AllNulFree (excludedFields item))
    excludedFields (fun _ _ => rfl) fun _ h => h
  apply hfields.weaken
  intro a b _ _ h
  simp only [excludedFields, List.cons.injEq, and_true] at h
  exact Prod.ext h.1 h.2

theorem sidecarFields_injective : Function.Injective sidecarFields := by
  intro a b h
  simp only [sidecarFields, List.cons.injEq, and_true] at h
  obtain ⟨hpath, hmode, hclass, hsize, hchunk, hroot, hcas⟩ := h
  have hsize' : a.sizeBytes = b.sizeBytes := UInt64.toNat_inj.mp (toString_nat_injective hsize)
  have hchunk' : a.chunkSizeBytes = b.chunkSizeBytes :=
    UInt64.toNat_inj.mp (toString_nat_injective hchunk)
  cases a
  cases b
  simp_all

theorem allNulFree_sidecarFields {sidecar : SnapshotSidecar}
    (h : AllNulFree [sidecar.logicalPath, sidecar.fileMode, sidecar.classification,
      sidecar.rootHash, sidecar.casManifestId]) : AllNulFree (sidecarFields sidecar) := by
  have hsize : NulFree (toString sidecar.sizeBytes) := nulFree_toString sidecar.sizeBytes.toNat
  have hchunk : NulFree (toString sidecar.chunkSizeBytes) :=
    nulFree_toString sidecar.chunkSizeBytes.toNat
  simp only [AllNulFree, sidecarFields, List.forall_mem_cons] at h ⊢
  obtain ⟨hpath, hmode, hclass, hroot, hcas, hend⟩ := h
  exact ⟨hpath, hmode, hclass, hsize, hchunk, hroot, hcas, hend⟩

theorem decodes_sidecar :
    Decodes anyRest (fun sidecar => AllNulFree (sidecarFields sidecar))
      (fun sidecar => textCode (sidecarFields sidecar)) fun sidecar => sidecar := by
  have hfields := decodes_textCode (fun sidecar => AllNulFree (sidecarFields sidecar))
    sidecarFields (fun _ _ => rfl) fun _ h => h
  exact hfields.weaken fun a b _ _ h => sidecarFields_injective h

theorem childFields_injective : Function.Injective childFields := by
  intro a b h
  simp only [childFields, List.cons.injEq, and_true] at h
  cases a
  cases b
  simp_all

theorem decodes_child :
    Decodes anyRest (fun child => AllNulFree (childFields child))
      (fun child => textCode (childFields child)) fun child => child := by
  have hfields := decodes_textCode (fun child => AllNulFree (childFields child))
    childFields (fun _ _ => rfl) fun _ h => h
  exact hfields.weaken fun a b _ _ h => childFields_injective h

/-- The texts of the parts, with the lists in the order in which they are hashed. -/
structure PartsNulFree (m : CapturedMetadata) : Prop where
  header : AllNulFree (headerFields m)
  capsule : ∀ capsule ∈ m.operationCapsule, AllNulFree capsule.texts
  included : ∀ path ∈ sortedIncluded m, NulFree path
  excluded : ∀ item ∈ sortedExcluded m, AllNulFree (excludedFields item)
  sidecars : ∀ sidecar ∈ sortedSidecars m, AllNulFree (sidecarFields sidecar)
  children : ∀ child ∈ sortedChildren m, AllNulFree (childFields child)

theorem partsNulFree {m : CapturedMetadata} (h : AllNulFree m.texts) : PartsNulFree m := by
  have htag : NulFree "devrelay.state.v1" := by decide
  simp only [AllNulFree, CapturedMetadata.texts, List.forall_mem_append, List.mem_flatMap,
    forall_exists_index, and_imp, Option.mem_toList] at h
  obtain ⟨⟨⟨⟨⟨hheader, hcapsule⟩, hincluded⟩, hexcluded⟩, hsidecars⟩, hchildren⟩ := h
  exact {
    header := List.forall_mem_cons.mpr ⟨htag, hheader⟩
    capsule := fun capsule hmem text => hcapsule text capsule hmem
    included := fun path hmem => hincluded path ((List.mem_insertionSort _).mp hmem)
    excluded := fun item hmem text =>
      hexcluded text item ((List.mem_insertionSort _).mp hmem)
    sidecars := fun sidecar hmem => allNulFree_sidecarFields fun text =>
      hsidecars text sidecar ((List.mem_insertionSort _).mp hmem)
    children := fun child hmem text =>
      hchildren text child ((List.mem_insertionSort _).mp hmem) }

/-- The hashed bytes show the state. -/
theorem sameHashedState_of_capturedStream {m n : CapturedMetadata} (hm : AllNulFree m.texts)
    (hn : AllNulFree n.texts) (h : capturedStream m = capturedStream n) : SameHashedState m n := by
  have hcode : metadataCode m = metadataCode n := by
    rw [← capturedStream_eq, ← capturedStream_eq, h]
  have hnone : TagGroups [] [] PartsNulFree (fun _ : CapturedMetadata => []) fun _ => () :=
    Groups.none
  have hchildren := hnone.entries "child-snapshot" (decodes_follow decodes_child)
    (by decide) (by decide) sortedChildren fun _ hm => hm.children
  have hsidecars := hchildren.entries "sidecar" (decodes_follow decodes_sidecar)
    (by decide) (by decide) sortedSidecars fun _ hm => hm.sidecars
  have hexcluded := hsidecars.entries "excluded" (decodes_follow decodes_excluded)
    (by decide) (by decide) sortedExcluded fun _ hm => hm.excluded
  have hincluded := hexcluded.entries "included" decodes_oneText (by decide) (by decide)
    sortedIncluded fun _ hm => hm.included
  have hcapsule := hincluded.optional "operation-capsule" decodes_capsule (by decide)
    (by decide) CapturedMetadata.operationCapsule fun _ hm => hm.capsule
  have hheader := decodes_textCode PartsNulFree headerFields (fun _ _ => rfl)
    fun _ hm => hm.header
  have hall := hheader.append hcapsule.decodes fun _ _ _ _ => trivial
  have hview := hall.view_eq (partsNulFree hm) (partsNulFree hn) (opens_nil _) hcode
  simp only [headerFields, Prod.mk.injEq, List.cons.injEq, true_and, and_true, List.map_id',
    Option.map_id'] at hview
  obtain ⟨⟨hproject, hhead, hindex, hwork⟩, hcapsule, hpaths, hitems, hside, hchild⟩ := hview
  have hsorted : ∀ {γ : Type} {le : γ → γ → Prop} [DecidableRel le] {xs ys : List γ},
      xs.insertionSort le = ys.insertionSort le → xs.Perm ys := by
    intro γ le _ xs ys heq
    exact ((List.perm_insertionSort le xs).symm.trans (List.Perm.of_eq heq)).trans
      (List.perm_insertionSort le ys)
  exact {
    projectId := hproject
    headOid := hhead
    indexTreeOid := hindex
    workTreeOid := hwork
    operationCapsule := hcapsule
    includedUntracked := hsorted hpaths
    excluded := (((List.perm_insertionSort _ m.excluded).symm.map _).trans
      (List.Perm.of_eq hitems)).trans ((List.perm_insertionSort _ n.excluded).map _)
    sidecars := hsorted hside
    childSnapshots := hsorted hchild }

/-- The digests of these two texts are different, or the texts are the same. -/
def NoCollision (digest : Blake3) (s t : ByteArray) : Prop := digest.hex s = digest.hex t → s = t

/-- Different states are hashed from different bytes, and where the digest does not collide
the same hash is of the same state. -/
theorem capturedStream_injective {m n : CapturedMetadata} (hm : AllNulFree m.texts)
    (hn : AllNulFree n.texts) :
    (¬SameHashedState m n → capturedStream m ≠ capturedStream n) ∧
      ∀ digest, NoCollision digest (capturedStream m) (capturedStream n) →
        calculateCapturedHash digest m = calculateCapturedHash digest n → SameHashedState m n := by
  constructor
  · intro hdiffer heq
    exact hdiffer (sameHashedState_of_capturedStream hm hn heq)
  · intro digest hfree heq
    exact sameHashedState_of_capturedStream hm hn (hfree heq)

/-- A merge with one conflict file. -/
def demoCapsule : CapturedCapsule where
  operation := {
    kind := .merge
    currentHeadOid := "c1"
    operationOids := ["c2"]
    originalHeadOid := some "c1"
    progress := some {
      interactive := false
      originalHeadOid := none
      ontoOid := some "c3"
      headName := none
      todo := ["pick c4"]
      done := []
      currentStep := some { current := some 1, total := none } } }
  unmergedEntries := [{ path := "a", stages := [{ stage := 2, mode := "100644", oid := "b1" }] }]
  worktreeFiles := [{ path := "a", contents := [60, 0] }]
  contentsFit := by decide

def demoCaptured : CapturedMetadata where
  schemaVersion := 1
  snapshotId := "s1_0123456789abcdef01234567"
  projectId := "p"
  projectName := "demo"
  sessionId := none
  parentSnapshotId := none
  childSnapshots := []
  branch := some "main"
  headOid := "c1"
  indexTreeOid := "t1"
  indexCommitOid := "c5"
  workTreeOid := "t2"
  workCommitOid := "c6"
  includedUntracked := ["new"]
  excluded := [{ path := "x", decision := .exclude, reason := "secret" }]
  sidecars := []
  stateHash := "h"
  createdAtUnixSeconds := 0
  operationCapsule := some demoCapsule

/-- The step that counts to one, and the one that is at one. -/
theorem capturedStream_injective_step :
    capturedStream demoCaptured ≠ capturedStream { demoCaptured with
      operationCapsule := some { demoCapsule with
        operation := { demoCapsule.operation with
          progress := some {
            interactive := false
            originalHeadOid := none
            ontoOid := some "c3"
            headName := none
            todo := ["pick c4"]
            done := []
            currentStep := some { current := none, total := some 1 } } } } } :=
  (capturedStream_injective (by decide) (by decide)).1
    fun h => absurd h.operationCapsule (by decide)

end DevRelay.Snapshot
