import DevRelay.Core.SnapshotSchema
import DevRelay.Manifest.TrustHash
import Mathlib.Data.List.Sort

/-!
# The state hash

`calculate_state_hash` of `snapshot_schema.rs`.  The hash is of a sequence of
fields, each followed by a zero byte: the project, the commit that is checked
out, the two trees, and the lists of paths, sidecars and child snapshots in
sorted order.
-/

namespace DevRelay.Snapshot

open DevRelay.Core DevRelay.Lib

def decisionOrder : PathDecision → Nat
  | .include => 0
  | .exclude => 1

/-- The order of a chain of `cmp … .then(…)` over these keys. -/
def lexLe : List String → List String → Bool
  | [], _ => true
  | _ :: _, [] => false
  | a :: as, b :: bs => decide (a < b) || (a = b && lexLe as bs)

def excludedLe (left right : ClassifiedPath) : Bool :=
  lexLe [left.path, left.reason] [right.path, right.reason] &&
    (left.path ≠ right.path || left.reason ≠ right.reason ||
      decide (decisionOrder left.decision ≤ decisionOrder right.decision))

def sidecarLe (left right : SnapshotSidecar) : Bool :=
  lexLe [left.logicalPath, left.casManifestId] [right.logicalPath, right.casManifestId]

def childSnapshotLe (left right : SnapshotChildSnapshot) : Bool :=
  lexLe [left.path, left.relationship, left.projectId, left.sessionId, left.snapshotId]
    [right.path, right.relationship, right.projectId, right.sessionId, right.snapshotId]

def updateHashFields (hasher : Hasher) (fields : List String) : Hasher :=
  fields.foldl updateHashField hasher

def updateIncludedHash (hasher : Hasher) (path : String) : Hasher :=
  updateHashFields hasher ["included", path]

def updateExcludedHash (hasher : Hasher) (item : ClassifiedPath) : Hasher :=
  updateHashFields hasher ["excluded", item.path, item.reason]

def updateSidecarHash (hasher : Hasher) (sidecar : SnapshotSidecar) : Hasher :=
  updateHashFields hasher ["sidecar", sidecar.logicalPath, sidecar.fileMode,
    sidecar.classification, toString sidecar.sizeBytes, toString sidecar.chunkSizeBytes,
    sidecar.rootHash, sidecar.casManifestId]

def updateChildSnapshotHash (hasher : Hasher) (child : SnapshotChildSnapshot) : Hasher :=
  updateHashFields hasher ["child-snapshot", child.relationship, child.path, child.projectId,
    child.sessionId, child.snapshotId, child.stateHash]

/-- The bytes fed to the hasher; the snapshots here have no operation capsule. -/
def stateStream (metadata : SnapshotMetadata) : ByteArray :=
  let hasher := updateHashFields Hasher.new
    ["devrelay.state.v1", metadata.projectId, metadata.headOid, metadata.indexTreeOid,
      metadata.workTreeOid]
  let hasher := (metadata.includedUntracked.insertionSort (· ≤ ·)).foldl updateIncludedHash hasher
  let hasher := (metadata.excluded.insertionSort fun a b => excludedLe a b).foldl
    updateExcludedHash hasher
  let hasher := (metadata.sidecars.insertionSort fun a b => sidecarLe a b).foldl
    updateSidecarHash hasher
  let hasher := (metadata.childSnapshots.insertionSort fun a b => childSnapshotLe a b).foldl
    updateChildSnapshotHash hasher
  hasher.fed

def calculateStateHash (digest : Blake3) (metadata : SnapshotMetadata) : String :=
  digest.hex (stateStream metadata)

/-! ## What the stream determines -/

theorem updateHashFields_eq (hasher : Hasher) (fields : List String) :
    updateHashFields hasher fields = hasher.feed fields := by
  rw [updateHashFields, foldl_feed updateHashField_eq, List.flatMap_singleton']

/-- The fields after the two trees. -/
def listFields (metadata : SnapshotMetadata) : List String :=
  ((metadata.includedUntracked.insertionSort (· ≤ ·)).flatMap fun path => ["included", path]) ++
    ((metadata.excluded.insertionSort fun a b => excludedLe a b).flatMap fun item =>
      ["excluded", item.path, item.reason]) ++
    ((metadata.sidecars.insertionSort fun a b => sidecarLe a b).flatMap fun sidecar =>
      ["sidecar", sidecar.logicalPath, sidecar.fileMode, sidecar.classification,
        toString sidecar.sizeBytes, toString sidecar.chunkSizeBytes, sidecar.rootHash,
        sidecar.casManifestId]) ++
    (metadata.childSnapshots.insertionSort fun a b => childSnapshotLe a b).flatMap fun child =>
      ["child-snapshot", child.relationship, child.path, child.projectId, child.sessionId,
        child.snapshotId, child.stateHash]

theorem stateStream_eq (metadata : SnapshotMetadata) :
    stateStream metadata = (framedText (["devrelay.state.v1", metadata.projectId,
      metadata.headOid, metadata.indexTreeOid, metadata.workTreeOid] ++
        listFields metadata)).toByteArray := by
  unfold stateStream
  extract_lets header paths items sidecars children
  have hpaths : paths = header.feed _ :=
    foldl_feed (f := updateIncludedHash) (fun hasher _ => updateHashFields_eq hasher _) _ _
  have hitems : items = paths.feed _ :=
    foldl_feed (f := updateExcludedHash) (fun hasher _ => updateHashFields_eq hasher _) _ _
  have hsidecars : sidecars = items.feed _ :=
    foldl_feed (f := updateSidecarHash) (fun hasher _ => updateHashFields_eq hasher _) _ _
  have hchildren : children = sidecars.feed _ :=
    foldl_feed (f := updateChildSnapshotHash) (fun hasher _ => updateHashFields_eq hasher _) _ _
  have hheader : header = Hasher.new.feed _ := updateHashFields_eq _ _
  rw [hchildren, hsidecars, hitems, hpaths, hheader, ← Hasher.feed_append,
    ← Hasher.feed_append, ← Hasher.feed_append, ← Hasher.feed_append]
  simp [Hasher.feed, Hasher.update, Hasher.new, listFields]

/-- Where the projects are the same, the rest of the streams is. -/
theorem stateStream_unnamed {m n : SnapshotMetadata} (hproject : m.projectId = n.projectId)
    (h : stateStream m = stateStream n) :
    stateStream { m with projectId := "" } = stateStream { n with projectId := "" } := by
  rw [stateStream_eq, stateStream_eq, String.toByteArray_inj, ← String.toList_inj,
    toList_framedText, toList_framedText] at h ⊢
  simp only [List.cons_append, List.nil_append, List.map_cons, frame_cons, hproject] at h ⊢
  have hafterTag := (List.cons.inj (List.append_cancel_left h)).2
  exact congrArg _ (congrArg _ (congrArg _ (List.append_cancel_left hafterTag)))

end DevRelay.Snapshot
