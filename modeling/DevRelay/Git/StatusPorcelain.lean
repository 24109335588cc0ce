import DevRelay.Core.Error
import DevRelay.Lib.TextBytes

/-!
# The output of `git status --porcelain=v2 -z --branch`

`parse_status_porcelain_v2` of `git.rs`, and the format that Git documents for what it
reads.  Every line ends in a zero byte; the paths stand last in their lines and are written
as they are, and a renamed or copied file has its original path in a line of its own.
-/

namespace DevRelay.Git

open DevRelay.Core DevRelay.Lib

structure StatusCounts where
  staged : Nat
  unstaged : Nat
  untracked : Nat
  ignored : Nat
  unmerged : Nat
  deriving DecidableEq, Repr

def StatusCounts.default : StatusCounts := ⟨0, 0, 0, 0, 0⟩

inductive StatusEntryKind where
  | ordinary
  | renamed
  | copied
  | unmerged
  | untracked
  | ignored
  deriving DecidableEq, Repr

structure StatusEntry where
  kind : StatusEntryKind
  xy : Option String
  path : String
  originalPath : Option String
  deriving DecidableEq, Repr

structure GitStatus where
  headOid : String
  branch : Option String
  upstream : Option String
  ahead : Option Nat
  behind : Option Nat
  entries : List StatusEntry
  counts : StatusCounts
  deriving DecidableEq, Repr

/-! ## The parser -/

/-- `record.strip_prefix(start)` -/
def stripStart (start : String) (record : List Char) : Option (List Char) :=
  start.toList.isPrefixOf? record

/-- `raw.parse::<usize>().ok()` -/
def parseUsize (raw : List Char) : Option Nat := parseUnsigned 64 raw

def parseBranchAheadBehind (value : List Char) : Option Nat × Option Nat :=
  (splitWhitespace value).foldl (fun (ahead, behind) part =>
    match part with
    | '+' :: raw => (parseUsize raw, behind)
    | '-' :: raw => (ahead, parseUsize raw)
    | _ => (ahead, behind)) (none, none)

def addXyCounts (xy : List Char) (counts : StatusCounts) : StatusCounts :=
  let x := (xy[0]?).getD '.'
  let y := (xy[1]?).getD '.'
  let counts := if x ≠ '.' then { counts with staged := counts.staged + 1 } else counts
  if y ≠ '.' then { counts with unstaged := counts.unstaged + 1 } else counts

def changedEntryKind (record : List Char) : StatusEntryKind :=
  if (stripStart "2 " record).isNone then .ordinary
  else
    match (splitWhitespace record)[8]? with
    | some ('C' :: _) => .copied
    | _ => .renamed

def parsePathAfterFields (record : List Char) (fieldsBeforePath : Nat) : Option String :=
  ((splitn ' ' (fieldsBeforePath + 1) record)[fieldsBeforePath]?).map String.ofList

def parsePathFromChangedRecord (record : List Char) : StatusEntryKind → Option String
  | .ordinary => parsePathAfterFields record 8
  | .renamed | .copied => parsePathAfterFields record 9
  | .unmerged | .untracked | .ignored => none

def GitStatus.push (self : GitStatus) (entry : StatusEntry) (counts : StatusCounts) : GitStatus :=
  { self with entries := self.entries ++ [entry], counts }

/-- A record that begins with `1 ` or `2 `.  The second value tells whether the next record,
the original path, belongs to it. -/
def parseChangedRecord (record : List Char) (next : Option (List Char)) (status : GitStatus) :
    Except DevRelayError (GitStatus × Bool) :=
  let kind := changedEntryKind record
  match (splitWhitespace record)[1]? with
  | none => .error (.manifest ("invalid git status record: " ++ String.ofList record))
  | some xy =>
    let path := (parsePathFromChangedRecord record kind).getD ""
    let renamed := kind = .renamed || kind = .copied
    let originalPath := if renamed then next.map String.ofList else none
    .ok (status.push ⟨kind, some (String.ofList xy), path, originalPath⟩
      (addXyCounts xy status.counts), renamed)

/-- The body of the loop, with the record behind the one that is read. -/
def parseRecord (record : List Char) (next : Option (List Char)) (status : GitStatus) :
    Except DevRelayError (GitStatus × Bool) :=
  match stripStart "# branch.oid " record with
  | some value => .ok ({ status with headOid := String.ofList value }, false)
  | none =>
  match stripStart "# branch.head " record with
  | some value =>
    .ok (if String.ofList value ≠ "(detached)" then
      { status with branch := some (String.ofList value) } else status, false)
  | none =>
  match stripStart "# branch.upstream " record with
  | some value => .ok ({ status with upstream := some (String.ofList value) }, false)
  | none =>
  match stripStart "# branch.ab " record with
  | some value =>
    let (ahead, behind) := parseBranchAheadBehind value
    .ok ({ status with ahead, behind }, false)
  | none =>
  match stripStart "? " record with
  | some path =>
    .ok (status.push ⟨.untracked, none, String.ofList path, none⟩
      { status.counts with untracked := status.counts.untracked + 1 }, false)
  | none =>
  match stripStart "! " record with
  | some path =>
    .ok (status.push ⟨.ignored, none, String.ofList path, none⟩
      { status.counts with ignored := status.counts.ignored + 1 }, false)
  | none =>
  if (stripStart "1 " record).isSome || (stripStart "2 " record).isSome then
    parseChangedRecord record next status
  else if (stripStart "u " record).isSome then
    .ok (status.push ⟨.unmerged, none, (parsePathAfterFields record 10).getD "", none⟩
      { status.counts with unmerged := status.counts.unmerged + 1 }, false)
  else .ok (status, false)

/-- The loop; `skip` when the first record belongs to the one before it. -/
def parseRecords (skip : Bool) : List (List Char) → GitStatus → Except DevRelayError GitStatus
  | [], status => .ok status
  | record :: rest, status =>
    if skip then parseRecords false rest status
    else do
      let (status, skip) ← parseRecord record rest.head? status
      parseRecords skip rest status

def GitStatus.initial : GitStatus := ⟨"", none, none, none, none, [], .default⟩

def parseStatusPorcelainV2 (raw : String) : Except DevRelayError GitStatus := do
  let records := (raw.toList.splitOn '\x00').filter fun record => !record.isEmpty
  let status ← parseRecords false records .initial
  if status.headOid.isEmpty then
    throw (.gitCommand "status --porcelain=v2 -z --branch"
      "repository has no HEAD or status output was incomplete")
  return status

/-! ## The format -/

/-- A text in a line. -/
structure LineText where
  text : String
  nonempty : text ≠ ""
  nulFree : NulFree text

/-- A field between spaces: a mode, an object name, the state of a submodule. -/
structure FieldText extends LineText where
  unspaced : ∀ c ∈ text.toList, isSpace c = false

/-- One side of an `<XY>` field. -/
inductive Change where
  | unmodified
  | modified
  | typeChanged
  | added
  | deleted
  | renamed
  | copied
  | updatedUnmerged
  deriving DecidableEq, Repr

def Change.letter : Change → Char
  | .unmodified => '.'
  | .modified => 'M'
  | .typeChanged => 'T'
  | .added => 'A'
  | .deleted => 'D'
  | .renamed => 'R'
  | .copied => 'C'
  | .updatedUnmerged => 'U'

/-- The staged and the unstaged state. -/
structure XY where
  x : Change
  y : Change
  deriving DecidableEq, Repr

def XY.chars (self : XY) : List Char := [self.x.letter, self.y.letter]

/-- `<XY> <sub> <mH> <mI> <mW> <hH> <hI>` -/
structure ChangedFields where
  xy : XY
  sub : FieldText
  headMode : FieldText
  indexMode : FieldText
  worktreeMode : FieldText
  headOid : FieldText
  indexOid : FieldText

/-- `<X><score>`: a rename or a copy, and how similar the files are. -/
structure RenameScore where
  copied : Bool
  score : Nat
  deriving DecidableEq, Repr

/-- `<XY> <sub> <m1> <m2> <m3> <mW> <h1> <h2> <h3>` -/
structure UnmergedFields where
  xy : XY
  sub : FieldText
  modes : FieldText × FieldText × FieldText × FieldText
  oids : FieldText × FieldText × FieldText

inductive StatusRecord where
  | ordinary (fields : ChangedFields) (path : LineText)
  | renamed (fields : ChangedFields) (score : RenameScore) (path original : LineText)
  | unmerged (fields : UnmergedFields) (path : LineText)
  | untracked (path : LineText)
  | ignored (path : LineText)

/-- The branch headers. -/
structure BranchHeaders where
  oid : LineText
  head : LineText
  upstream : Option LineText
  aheadBehind : Option (UInt64 × UInt64)

def FieldText.chars (self : FieldText) : List Char := self.text.toList

def ChangedFields.words (self : ChangedFields) : List (List Char) :=
  [self.xy.chars, self.sub.chars, self.headMode.chars, self.indexMode.chars,
    self.worktreeMode.chars, self.headOid.chars, self.indexOid.chars]

def RenameScore.chars (self : RenameScore) : List Char :=
  (if self.copied then 'C' else 'R') :: Nat.toDigits 10 self.score

def UnmergedFields.words (self : UnmergedFields) : List (List Char) :=
  [self.xy.chars, self.sub.chars, self.modes.1.chars, self.modes.2.1.chars,
    self.modes.2.2.1.chars, self.modes.2.2.2.chars, self.oids.1.chars, self.oids.2.1.chars,
    self.oids.2.2.chars]

/-- The lines of a record. -/
def StatusRecord.lines : StatusRecord → List (List Char)
  | .ordinary fields path => [frame ' ' (['1'] :: fields.words) ++ path.text.toList]
  | .renamed fields score path original =>
    [frame ' ' (['2'] :: (fields.words ++ [score.chars])) ++ path.text.toList, original.text.toList]
  | .unmerged fields path => [frame ' ' (['u'] :: fields.words) ++ path.text.toList]
  | .untracked path => ["? ".toList ++ path.text.toList]
  | .ignored path => ["! ".toList ++ path.text.toList]

def BranchHeaders.lines (self : BranchHeaders) : List (List Char) :=
  ["# branch.oid ".toList ++ self.oid.text.toList,
    "# branch.head ".toList ++ self.head.text.toList] ++
  (self.upstream.toList.map fun upstream =>
    "# branch.upstream ".toList ++ upstream.text.toList) ++
  self.aheadBehind.toList.map fun (ahead, behind) =>
    "# branch.ab ".toList ++ '+' :: Nat.toDigits 10 ahead.toNat ++
      " -".toList ++ Nat.toDigits 10 behind.toNat

/-- What Git prints. -/
def printStatus (headers : BranchHeaders) (records : List StatusRecord) : String :=
  String.ofList (frame '\x00' (headers.lines ++ records.flatMap StatusRecord.lines))

/-! ## What the output says -/

/-- The entry for a record. -/
def StatusRecord.entry : StatusRecord → StatusEntry
  | .ordinary fields path =>
    ⟨.ordinary, some (String.ofList fields.xy.chars), path.text, none⟩
  | .renamed fields score path original =>
    ⟨if score.copied then .copied else .renamed, some (String.ofList fields.xy.chars),
      path.text, some original.text⟩
  | .unmerged _ path => ⟨.unmerged, none, path.text, none⟩
  | .untracked path => ⟨.untracked, none, path.text, none⟩
  | .ignored path => ⟨.ignored, none, path.text, none⟩

/-- The state of a changed file; an unmerged file is counted as such alone. -/
def StatusRecord.xy? : StatusRecord → Option XY
  | .ordinary fields _ => some fields.xy
  | .renamed fields _ _ _ => some fields.xy
  | .unmerged _ _ | .untracked _ | .ignored _ => none

def StatusRecord.IsStaged (self : StatusRecord) : Bool :=
  self.xy?.any fun xy => xy.x ≠ .unmodified

def StatusRecord.IsUnstaged (self : StatusRecord) : Bool :=
  self.xy?.any fun xy => xy.y ≠ .unmodified

def StatusRecord.HasKind (kind : StatusEntryKind) (self : StatusRecord) : Bool :=
  self.entry.kind = kind

def countsOf (records : List StatusRecord) : StatusCounts where
  staged := records.countP StatusRecord.IsStaged
  unstaged := records.countP StatusRecord.IsUnstaged
  untracked := records.countP (StatusRecord.HasKind .untracked)
  ignored := records.countP (StatusRecord.HasKind .ignored)
  unmerged := records.countP (StatusRecord.HasKind .unmerged)

/-- The status that the output reports. -/
def reportedStatus (headers : BranchHeaders) (records : List StatusRecord) : GitStatus where
  headOid := headers.oid.text
  branch := if headers.head.text ≠ "(detached)" then some headers.head.text else none
  upstream := headers.upstream.map LineText.text
  ahead := headers.aheadBehind.map fun ab => ab.1.toNat
  behind := headers.aheadBehind.map fun ab => ab.2.toNat
  entries := records.map StatusRecord.entry
  counts := countsOf records

end DevRelay.Git
