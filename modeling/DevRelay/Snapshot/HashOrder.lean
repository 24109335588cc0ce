import DevRelay.Lib.StableSort
import DevRelay.Snapshot.StatePreimage
import Mathlib.Data.String.Basic

/-!
# The state hash and the order of the lists

The lists are sorted before they are hashed, but the sidecars only by their path and
manifest, and the child snapshots by all fields but their state hash.  Validation admits
entries that agree in these, and what else they carry is hashed in the order in which
they came.
-/

namespace DevRelay.Snapshot

open DevRelay.Core DevRelay.Lib

/-! ## The orders -/

theorem lexLe_total (as bs : List String) : lexLe as bs = true ∨ lexLe bs as = true := by
  induction as generalizing bs with
  | nil => exact Or.inl rfl
  | cons a as ih =>
    cases bs with
    | nil => exact Or.inr rfl
    | cons b bs =>
      simp only [lexLe, Bool.or_eq_true, Bool.and_eq_true, decide_eq_true_eq]
      rcases lt_trichotomy a b with hlt | heq | hgt
      · exact Or.inl (Or.inl hlt)
      · rcases ih bs with hle | hge
        · exact Or.inl (Or.inr ⟨heq, hle⟩)
        · exact Or.inr (Or.inr ⟨heq.symm, hge⟩)
      · exact Or.inr (Or.inl hgt)

theorem lexLe_trans {as bs cs : List String} (hab : lexLe as bs = true)
    (hbc : lexLe bs cs = true) : lexLe as cs = true := by
  induction as generalizing bs cs with
  | nil => rfl
  | cons a as ih =>
    cases bs with
    | nil => cases hab
    | cons b bs =>
      cases cs with
      | nil => cases hbc
      | cons c cs =>
        simp only [lexLe, Bool.or_eq_true, Bool.and_eq_true, decide_eq_true_eq]
          at hab hbc ⊢
        rcases hab with hab | ⟨rfl, hab⟩
        · rcases hbc with hbc | ⟨rfl, hbc⟩
          · exact Or.inl (lt_trans hab hbc)
          · exact Or.inl hab
        · rcases hbc with hbc | ⟨rfl, hbc⟩
          · exact Or.inl hbc
          · exact Or.inr ⟨rfl, ih hab hbc⟩

theorem lexLe_antisymm {as bs : List String} (hab : lexLe as bs = true)
    (hba : lexLe bs as = true) : as = bs := by
  induction as generalizing bs with
  | nil =>
    cases bs with
    | nil => rfl
    | cons b bs => cases hba
  | cons a as ih =>
    cases bs with
    | nil => cases hab
    | cons b bs =>
      simp only [lexLe, Bool.or_eq_true, Bool.and_eq_true, decide_eq_true_eq] at hab hba
      rcases hab with hab | ⟨rfl, hab⟩
      · rcases hba with hba | ⟨rfl, -⟩
        · exact absurd (lt_trans hab hba) (lt_irrefl a)
        · exact absurd hab (lt_irrefl b)
      · rcases hba with hba | ⟨-, hba⟩
        · exact absurd hba (lt_irrefl a)
        · rw [ih hab hba]

theorem lexLe_refl (as : List String) : lexLe as as = true :=
  (lexLe_total as as).elim id id

/-- The fields that the excluded paths are sorted by first. -/
def excludedKey (item : ClassifiedPath) : List String := [item.path, item.reason]

/-- The fields that the sidecars are sorted by. -/
def sidecarKey (sidecar : SnapshotSidecar) : List String :=
  [sidecar.logicalPath, sidecar.casManifestId]

/-- The fields that the child snapshots are sorted by. -/
def childKey (child : SnapshotChildSnapshot) : List String :=
  [child.path, child.relationship, child.projectId, child.sessionId, child.snapshotId]

theorem excludedLe_iff {a b : ClassifiedPath} :
    excludedLe a b = true ↔ lexLe (excludedKey a) (excludedKey b) = true ∧
      (excludedKey a = excludedKey b → decisionOrder a.decision ≤ decisionOrder b.decision) := by
  simp only [excludedLe, excludedKey, Bool.and_eq_true, Bool.or_eq_true, decide_eq_true_eq,
    List.cons.injEq, and_true]
  apply and_congr_right
  intro _
  tauto

instance : Std.Total fun a b : ClassifiedPath => excludedLe a b = true where
  total a b := by
    rw [excludedLe_iff, excludedLe_iff]
    by_cases hkey : excludedKey a = excludedKey b
    · rw [hkey]
      rcases le_total (decisionOrder a.decision) (decisionOrder b.decision) with hle | hge
      · exact Or.inl ⟨lexLe_refl _, fun _ => hle⟩
      · exact Or.inr ⟨lexLe_refl _, fun _ => hge⟩
    · rcases lexLe_total (excludedKey a) (excludedKey b) with hle | hge
      · exact Or.inl ⟨hle, fun h => absurd h hkey⟩
      · exact Or.inr ⟨hge, fun h => absurd h.symm hkey⟩

instance : IsTrans ClassifiedPath fun a b => excludedLe a b = true where
  trans a b c hab hbc := by
    rw [excludedLe_iff] at hab hbc ⊢
    refine ⟨lexLe_trans hab.1 hbc.1, fun hkey => ?_⟩
    have hba : excludedKey b = excludedKey a := lexLe_antisymm (hkey ▸ hbc.1) hab.1
    exact (hab.2 hba.symm).trans (hbc.2 (hba.trans hkey))

/-- The sort of the excluded paths tells all of them apart. -/
theorem eq_of_tied_excluded {a b : ClassifiedPath}
    (h : Tied (fun a b => excludedLe a b = true) a b) : a = b := by
  have hab := excludedLe_iff.mp h.1
  have hba := excludedLe_iff.mp h.2
  have hkey := lexLe_antisymm hab.1 hba.1
  have hdecision := le_antisymm (hab.2 hkey) (hba.2 hkey.symm)
  simp only [excludedKey, List.cons.injEq, and_true] at hkey
  have horder : a.decision = b.decision := by
    cases ha : a.decision <;> cases hb : b.decision <;> simp_all [decisionOrder]
  cases a
  cases b
  simp_all

section Orders

variable {γ : Type} (key : γ → List String)

theorem total_of_key : Std.Total fun a b : γ => lexLe (key a) (key b) = true :=
  ⟨fun a b => lexLe_total (key a) (key b)⟩

theorem trans_of_key : IsTrans γ fun a b => lexLe (key a) (key b) = true :=
  ⟨fun _ _ _ => lexLe_trans⟩

theorem tied_iff_of_key {a b : γ} :
    Tied (fun a b : γ => lexLe (key a) (key b) = true) a b ↔ key a = key b := by
  constructor
  · intro h
    exact lexLe_antisymm h.1 h.2
  · intro h
    constructor
    · show lexLe (key a) (key b) = true
      rw [h]
      exact lexLe_refl _
    · show lexLe (key b) (key a) = true
      rw [h]
      exact lexLe_refl _

end Orders

instance : Std.Total fun a b : SnapshotSidecar => sidecarLe a b = true :=
  total_of_key sidecarKey

instance : IsTrans SnapshotSidecar fun a b => sidecarLe a b = true := trans_of_key sidecarKey

instance : Std.Total fun a b : SnapshotChildSnapshot => childSnapshotLe a b = true :=
  total_of_key childKey

instance : IsTrans SnapshotChildSnapshot fun a b => childSnapshotLe a b = true :=
  trans_of_key childKey

theorem tied_sidecar_iff {a b : SnapshotSidecar} :
    Tied (fun a b => sidecarLe a b = true) a b ↔ sidecarKey a = sidecarKey b :=
  tied_iff_of_key sidecarKey

theorem tied_child_iff {a b : SnapshotChildSnapshot} :
    Tied (fun a b => childSnapshotLe a b = true) a b ↔ childKey a = childKey b :=
  tied_iff_of_key childKey

/-! ## The hash of reordered metadata -/

/-- The same metadata with its four lists in another order. -/
structure Reordered (m n : CapturedMetadata) : Prop where
  included : m.includedUntracked.Perm n.includedUntracked
  excluded : m.excluded.Perm n.excluded
  sidecars : m.sidecars.Perm n.sidecars
  children : m.childSnapshots.Perm n.childSnapshots
  rest : n = { m with
    includedUntracked := n.includedUntracked
    excluded := n.excluded
    sidecars := n.sidecars
    childSnapshots := n.childSnapshots }

def OrderIndependent (digest : Blake3) (m : CapturedMetadata) : Prop :=
  ∀ n, Reordered m n → calculateCapturedHash digest n = calculateCapturedHash digest m

/-- The digest does not collide on the metadata and its other orders. -/
def NoReorderedCollision (digest : Blake3) (m : CapturedMetadata) : Prop :=
  ∀ n, Reordered m n → NoCollision digest (capturedStream n) (capturedStream m)

/-- The bytes of an entry among the sidecars. -/
def sidecarBytes : SnapshotSidecar → List UInt8 :=
  tagCode "sidecar" fun sidecar => textCode (sidecarFields sidecar)

/-- The bytes of an entry among the child snapshots. -/
def childBytes : SnapshotChildSnapshot → List UInt8 :=
  tagCode "child-snapshot" fun child => textCode (childFields child)

/-- Entries that the sort does not tell apart read the same in both orders. -/
def TiesCommute (m : CapturedMetadata) : Prop :=
  (∀ a ∈ m.sidecars, ∀ b ∈ m.sidecars, sidecarKey a = sidecarKey b →
    sidecarBytes a ++ sidecarBytes b = sidecarBytes b ++ sidecarBytes a) ∧
  ∀ a ∈ m.childSnapshots, ∀ b ∈ m.childSnapshots, childKey a = childKey b →
    childBytes a ++ childBytes b = childBytes b ++ childBytes a

/-- Entries that the sort does not tell apart are the same. -/
def TiesEqual (m : CapturedMetadata) : Prop :=
  (∀ a ∈ m.sidecars, ∀ b ∈ m.sidecars, sidecarKey a = sidecarKey b → a = b) ∧
  ∀ a ∈ m.childSnapshots, ∀ b ∈ m.childSnapshots, childKey a = childKey b → a = b

theorem markingDigest_noCollision (m : CapturedMetadata) :
    NoReorderedCollision (markingDigest (capturedStream m)) m :=
  fun _ _ heq => eq_of_markingDigest heq

/-- The same hash is the same bytes. -/
theorem orderIndependent_iff_code {digest : Blake3} {m : CapturedMetadata}
    (hfree : NoReorderedCollision digest m) :
    OrderIndependent digest m ↔ ∀ n, Reordered m n → metadataCode n = metadataCode m := by
  constructor
  · intro h n hn
    rw [← capturedStream_eq, ← capturedStream_eq, hfree n hn (h n hn)]
  · intro h n hn
    have hstream : capturedStream n = capturedStream m := by
      apply ByteArray.ext
      apply Array.toList_inj.mp
      rw [capturedStream_eq, capturedStream_eq, h n hn]
    rw [calculateCapturedHash, hstream, calculateCapturedHash]

/-- What stands in front of the sidecars. -/
def frontCode (m : CapturedMetadata) : List UInt8 :=
  textCode (headerFields m) ++
    (m.operationCapsule.toList.flatMap (tagCode "operation-capsule" capsuleCode) ++
      (sortedCode (· ≤ ·) (tagCode "included" oneText) m.includedUntracked ++
        sortedCode (fun a b => excludedLe a b = true)
          (tagCode "excluded" fun item => textCode (excludedFields item)) m.excluded))

theorem metadataCode_eq (m : CapturedMetadata) :
    metadataCode m = frontCode m ++
      (sortedCode (fun a b => sidecarLe a b = true) sidecarBytes m.sidecars ++
        sortedCode (fun a b => childSnapshotLe a b = true) childBytes m.childSnapshots) := by
  rw [frontCode]
  simp only [List.append_assoc]
  rw [← List.append_nil (sortedCode (fun a b => childSnapshotLe a b = true) _ _)]
  rfl

theorem frontCode_reordered {m n : CapturedMetadata} (h : Reordered m n) :
    frontCode n = frontCode m := by
  have hincluded : sortedCode (· ≤ ·) (tagCode "included" oneText) n.includedUntracked =
      sortedCode (· ≤ ·) (tagCode "included" oneText) m.includedUntracked :=
    (sortedCode_perm_iff _).mpr (fun a _ b _ htied => by rw [le_antisymm htied.1 htied.2])
      _ h.included
  have hexcluded : sortedCode (fun a b => excludedLe a b = true)
      (tagCode "excluded" fun item => textCode (excludedFields item)) n.excluded =
      sortedCode (fun a b => excludedLe a b = true)
        (tagCode "excluded" fun item => textCode (excludedFields item)) m.excluded :=
    (sortedCode_perm_iff _).mpr (fun a _ b _ htied => by rw [eq_of_tied_excluded htied])
      _ h.excluded
  rw [frontCode, frontCode, hincluded, hexcluded, h.rest]
  rfl

theorem orderIndependent_iff_tiesCommute {digest : Blake3} {m : CapturedMetadata}
    (hfree : NoReorderedCollision digest m) : OrderIndependent digest m ↔ TiesCommute m := by
  rw [orderIndependent_iff_code hfree]
  constructor
  · intro h
    constructor
    · intro a ha b hb hkey
      refine (sortedCode_perm_iff (fun a b => sidecarLe a b = true)).mp ?_ a ha b hb
        (tied_sidecar_iff.mpr hkey)
      intro ys hperm
      have hcode := h { m with sidecars := ys }
        ⟨List.Perm.refl _, List.Perm.refl _, hperm, List.Perm.refl _, rfl⟩
      rw [metadataCode_eq, metadataCode_eq m] at hcode
      exact List.append_cancel_right (List.append_cancel_left hcode)
    · intro a ha b hb hkey
      refine (sortedCode_perm_iff (fun a b => childSnapshotLe a b = true)).mp ?_ a ha b hb
        (tied_child_iff.mpr hkey)
      intro ys hperm
      have hcode := h { m with childSnapshots := ys }
        ⟨List.Perm.refl _, List.Perm.refl _, List.Perm.refl _, hperm, rfl⟩
      rw [metadataCode_eq, metadataCode_eq m] at hcode
      exact List.append_cancel_left (List.append_cancel_left hcode)
  · intro hties n hn
    have hsidecars : sortedCode (fun a b => sidecarLe a b = true) sidecarBytes n.sidecars =
        sortedCode (fun a b => sidecarLe a b = true) sidecarBytes m.sidecars :=
      (sortedCode_perm_iff _).mpr (fun a ha b hb htied =>
        hties.1 a ha b hb (tied_sidecar_iff.mp htied)) _ hn.sidecars
    have hchildren : sortedCode (fun a b => childSnapshotLe a b = true) childBytes
        n.childSnapshots =
        sortedCode (fun a b => childSnapshotLe a b = true) childBytes m.childSnapshots :=
      (sortedCode_perm_iff _).mpr (fun a ha b hb htied =>
        hties.2 a ha b hb (tied_child_iff.mp htied)) _ hn.children
    rw [metadataCode_eq, metadataCode_eq, frontCode_reordered hn, hsidecars, hchildren]

/-! ## Texts without zeros -/

/-- Two entries of one kind commute only when they are the same. -/
theorem eq_of_commute {γ : Type} {tag : String} {fields : γ → List String}
    (hlen : ∀ a b, (fields a).length = (fields b).length)
    (hinj : Function.Injective fields) {a b : γ} (ha : AllNulFree (fields a))
    (hb : AllNulFree (fields b)) (h : tagCode tag (fun value => textCode (fields value)) a ++
        tagCode tag (fun value => textCode (fields value)) b =
      tagCode tag (fun value => textCode (fields value)) b ++
        tagCode tag (fun value => textCode (fields value)) a) : a = b := by
  rw [tagCode_eq, tagCode_eq, List.append_assoc, List.append_assoc] at h
  have htail := (List.cons.inj (List.append_cancel_left h)).2
  have hdecodes := decodes_textCode (fun value => AllNulFree (fields value)) fields
    hlen (fun _ hfree => hfree)
  exact hinj (hdecodes a b _ _ ha hb trivial trivial htail).1

theorem tiesCommute_iff_tiesEqual {m : CapturedMetadata} (hfree : AllNulFree m.texts) :
    TiesCommute m ↔ TiesEqual m := by
  have hparts := partsNulFree hfree
  have hside : ∀ a ∈ m.sidecars, AllNulFree (sidecarFields a) :=
    fun a ha => hparts.sidecars a ((List.mem_insertionSort _).mpr ha)
  have hchild : ∀ a ∈ m.childSnapshots, AllNulFree (childFields a) :=
    fun a ha => hparts.children a ((List.mem_insertionSort _).mpr ha)
  constructor
  · intro h
    constructor
    · intro a ha b hb hkey
      exact eq_of_commute (fun _ _ => rfl) sidecarFields_injective (hside a ha) (hside b hb)
        (h.1 a ha b hb hkey)
    · intro a ha b hb hkey
      exact eq_of_commute (fun _ _ => rfl) childFields_injective (hchild a ha) (hchild b hb)
        (h.2 a ha b hb hkey)
  · intro h
    constructor
    · intro a ha b hb hkey
      rw [h.1 a ha b hb hkey]
    · intro a ha b hb hkey
      rw [h.2 a ha b hb hkey]

/-- The hash is independent of the order of the lists exactly when entries with one sort key
commute; where no text has a zero in it, these have to be the same entry. -/
theorem orderIndependent_iff {digest : Blake3} {m : CapturedMetadata}
    (hfree : NoReorderedCollision digest m) :
    (OrderIndependent digest m ↔ TiesCommute m) ∧
      (AllNulFree m.texts → (OrderIndependent digest m ↔ TiesEqual m)) :=
  ⟨orderIndependent_iff_tiesCommute hfree, fun htexts =>
    (orderIndependent_iff_tiesCommute hfree).trans (tiesCommute_iff_tiesEqual htexts)⟩

/-- A large file. -/
def plainSidecar : SnapshotSidecar where
  logicalPath := "data"
  fileMode := "100644"
  classification := "large"
  sizeBytes := 9
  chunkSizeBytes := 4
  rootHash := "r"
  casManifestId := "r"

/-- The same file with the executable bit. -/
def executableSidecar : SnapshotSidecar := { plainSidecar with fileMode := "100755" }

def demoTied (sidecars : List SnapshotSidecar) : CapturedMetadata :=
  { demoCaptured with sidecars, operationCapsule := none }

theorem orderIndependent_iff_demoTied :
    ¬OrderIndependent
      (markingDigest (capturedStream (demoTied [plainSidecar, executableSidecar])))
      (demoTied [plainSidecar, executableSidecar]) :=
  fun h => absurd
    ((((orderIndependent_iff (markingDigest_noCollision _)).2 (by decide)).mp h).1 plainSidecar
      (by decide) executableSidecar (by decide) (by decide)) (by decide)

/-- Metadata with two orders of its sidecars passes validation and is hashed differently
wherever the digest does not collide. -/
theorem demoTied_depends_on_order :
    (demoTied [plainSidecar, executableSidecar]).validate = .ok () ∧
      Reordered (demoTied [plainSidecar, executableSidecar])
        (demoTied [executableSidecar, plainSidecar]) ∧
      ∀ digest, NoCollision digest (capturedStream (demoTied [plainSidecar, executableSidecar]))
          (capturedStream (demoTied [executableSidecar, plainSidecar])) →
        calculateCapturedHash digest (demoTied [plainSidecar, executableSidecar]) ≠
          calculateCapturedHash digest (demoTied [executableSidecar, plainSidecar]) := by
  have hperm : [plainSidecar, executableSidecar].Perm [executableSidecar, plainSidecar] :=
    List.Perm.swap _ _ _
  refine ⟨by decide, ⟨List.Perm.refl _, List.Perm.refl _, hperm, List.Perm.refl _, rfl⟩, ?_⟩
  intro digest hfree heq
  exact absurd (hfree heq) (by decide +kernel)

end DevRelay.Snapshot
