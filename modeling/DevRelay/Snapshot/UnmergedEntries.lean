import DevRelay.Git.IndexInfo
import DevRelay.Snapshot.CapsuleHash
import Mathlib.Data.String.Basic

/-!
# The unmerged entries of a capsule

`apply_unmerged_index_entries` writes the paths as they are into lines, and
`capture_unmerged_index_entries` reads records that end with a null character,
with every backslash turned into a slash.  A path that a line cannot carry, that
git takes for a quoted one, or that has a backslash does not come back.
-/

namespace DevRelay.Snapshot

open DevRelay.Lib DevRelay.Core DevRelay.Git

/-! ## Apply -/

/-- `{mode} {oid} {stage}\t{path}` -/
def indexInfoLine (path : String) (stage : IndexStageEntry) : List Char :=
  headText stage.mode stage.oid stage.stage.toNat ++ '\t' :: path.toList

def indexInfoLines (entries : List UnmergedIndexEntry) : List (List Char) :=
  entries.flatMap fun entry => entry.stages.map (indexInfoLine entry.path)

def indexInfo (entries : List UnmergedIndexEntry) : List Char :=
  frame '\n' (indexInfoLines entries)

/-- `none` when git does not understand what it is given. -/
def applyUnmergedIndexEntries (git : IndexText) (entries : List UnmergedIndexEntry)
    (index : List CacheEntry) : Option (List CacheEntry) :=
  if entries = [] then some index
  else
    git.updateIndexInfo (entries.foldl (fun index entry => forceRemove index entry.path) index)
      (indexInfo entries)

/-! ## Capture -/

/-- `raw.parse::<u8>()` -/
def parseU8 (raw : List Char) : Option UInt8 := (parseUnsigned 8 raw).map UInt8.ofNat

/-- `debug` is Rust's `{:?}` of a text. -/
def malformedRecord (debug : String → String) (record : List Char) : DevRelayError :=
  .config ("unexpected git ls-files -u record: " ++ debug (String.ofList record))

def normalizeSeparators (path : List Char) : String :=
  String.ofList (path.map fun c => if c = '\\' then '/' else c)

/-- The path and the stage entry of a record. -/
def parseUnmergedRecord (debug : String → String) (record : List Char) :
    Except DevRelayError (String × IndexStageEntry) :=
  match splitn '\t' 2 record with
  | [metadata, path] =>
    match splitWhitespace metadata with
    | mode :: oid :: stage :: _ =>
      match parseU8 stage with
      | some stage =>
        .ok (normalizeSeparators path, ⟨stage, String.ofList mode, String.ofList oid⟩)
      | none => .error (malformedRecord debug record)
    | _ => .error (malformedRecord debug record)
  | _ => .error (malformedRecord debug record)

/-- `text.trim_end()` -/
def trimEnd (text : List Char) : List Char := (text.reverse.dropWhile isSpace).reverse

theorem trimEnd_append {text ending : List Char} {last : Char}
    (hending : ∀ c ∈ ending, isSpace c = true) (hlast : isSpace last = false) :
    trimEnd (text ++ last :: ending) = text ++ [last] := by
  have hdrop : (ending.reverse ++ (last :: text.reverse)).dropWhile isSpace =
      last :: text.reverse := by
    rw [List.dropWhile_append_of_pos fun c hc => hending c (List.mem_reverse.mp hc),
      List.dropWhile_cons_of_neg (by rw [hlast]; decide)]
  rw [trimEnd, List.reverse_append, List.reverse_cons, List.append_assoc,
    List.singleton_append, hdrop, List.reverse_cons, List.reverse_reverse]

def sortStages (stages : List IndexStageEntry) : List IndexStageEntry :=
  stages.insertionSort fun a b => a.stage ≤ b.stage

def unmergedFromRecords (records : List (String × IndexStageEntry)) : List UnmergedIndexEntry :=
  (SortedMap.groupBy Prod.fst Prod.snd records).entries.map fun group =>
    ⟨group.1, sortStages group.2⟩

/-- `raw` is the output of `git ls-files -u -z`. -/
def captureUnmergedIndexEntries (debug : String → String) (raw : List Char) :
    Except DevRelayError (List UnmergedIndexEntry) := do
  let records ← (((trimEnd raw).splitOn '\x00').filter fun record => !record.isEmpty).mapM
    (parseUnmergedRecord debug)
  return unmergedFromRecords records

/-! ## The round trip -/

/-- Entries as git reports them: paths and stages in order, in the modes and with the
object names that git writes, none of them a directory of another in one stage. -/
structure ReportedByGit (git : IndexText) (entries : List UnmergedIndexEntry) : Prop where
  paths : entries.Pairwise fun a b => a.path < b.path
  named : ∀ entry ∈ entries, entry.path ≠ "" ∧ NulFree entry.path ∧
    git.verifyPath (utf8 entry.path) = true
  staged : ∀ entry ∈ entries, entry.stages ≠ [] ∧
    entry.stages.Pairwise fun a b => a.stage < b.stage
  stages : ∀ entry ∈ entries, ∀ stage ∈ entry.stages, 1 ≤ stage.stage.toNat ∧
    stage.stage.toNat ≤ 3 ∧ CanonicalMode stage.mode ∧ IsOid git.format stage.oid
  apart : ∀ a ∈ entries, ∀ b ∈ entries, ∀ s ∈ a.stages, ∀ t ∈ b.stages,
    s.stage = t.stage → directoryConflict (utf8 a.path) (utf8 b.path) = false

/-- Applied to a clean index, the entries are captured again. -/
def RoundTripsThroughIndex (git : IndexText) (debug : String → String)
    (clean : List CacheEntry) (entries : List UnmergedIndexEntry) : Prop :=
  ∃ index, applyUnmergedIndexEntries git entries clean = some index ∧
    captureUnmergedIndexEntries debug (git.lsFilesUnmerged index) = .ok entries

/-- A path that both formats carry as it is. -/
def PlainPath (path : String) : Prop :=
  '\n' ∉ path.toList ∧ '\\' ∉ path.toList ∧ path.toList.head? ≠ some '"'

instance (path : String) : Decidable (PlainPath path) :=
  inferInstanceAs (Decidable (_ ∧ _))

end DevRelay.Snapshot
