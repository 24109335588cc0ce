import DevRelay.Tasks.ArtifactCapture
import Mathlib.Data.List.NodupEquivFin

/-!
# Artifacts there and back

What is captured is pulled to where it was when its path is plain: a text without backslashes
that is not blank.  Any other captured file makes the restore of the whole index fail, or put
the file at another path.
-/

namespace DevRelay.Artifacts

open DevRelay.Lib DevRelay.Core DevRelay.Upload

/-- A pattern matches the path of the file. -/
def matchedBy (globs : List (List UInt8 → Bool)) (file : WorkspaceFile) : Bool :=
  globs.any fun glob => glob (pathBytes file.1)

def matchedFiles (globs : List (List UInt8 → Bool)) (workspace : WorkspaceTree) :
    List WorkspaceFile :=
  (collectWorkspaceFiles workspace).filter (matchedBy globs)

/-- The destination has these files and no others. -/
def Recreated (destination : Destination) (files : List WorkspaceFile) : Prop :=
  ∀ path content, destination path = some (.leaf content) ↔ (path, content) ∈ files

/-- Each matched file has its own entry, no entry is refused, and the entries, one by one or
together, give the files back. -/
structure RoundTrips (blake3 : Blake3) (matched : List WorkspaceFile) (index : TaskArtifactIndex)
    (store : CasStore) (destinationRoot : String) : Prop where
  count : index.entries.length = matched.length
  distinct : (index.entries.map (·.path)).Nodup
  pulled : ∀ file ∈ matched, ∃ entry ∈ index.entries, ∃ result destination,
    pullTaskArtifact blake3 index entry.path store destinationRoot Places.empty =
      .ok (result, destination) ∧ Recreated destination [file]
  accepted : ∀ entry ∈ index.entries, ∃ file ∈ matched, ∃ result destination,
    pullTaskArtifact blake3 index entry.path store destinationRoot Places.empty =
      .ok (result, destination) ∧ Recreated destination [file]
  restored : ∃ result destination,
    restoreTaskResultCacheHit blake3 index store destinationRoot Places.empty =
      .ok (result, destination) ∧ Recreated destination matched

/-- The capture succeeds, and what it captures comes back. -/
def CapturesAndRestores (env : CaptureEnv) (taskRunId : String) (workspace : WorkspaceTree)
    (definition : TaskDefinition) (store : CasStore) (globs : List (List UInt8 → Bool))
    (destinationRoot : String) : Prop :=
  ∃ summary stored,
    captureTaskArtifacts env taskRunId workspace definition store = .ok (summary, stored) ∧
    RoundTrips env.blake3 (matchedFiles globs workspace) summary.index stored destinationRoot

/-- Every file that a pattern matches, by its path or by the path in the index, has a plain
path. -/
def MatchesPlain (globs : List (List UInt8 → Bool)) (workspace : WorkspaceTree) : Prop :=
  ∀ file ∈ collectWorkspaceFiles workspace,
    matchedBy globs file = true ∨ captures globs file = true → isPlainPath file.1 = true

variable {workspace : WorkspaceTree} {globs : List (List UInt8 → Bool)} {env : CaptureEnv}
  {store : CasStore} {index : TaskArtifactIndex} {file : WorkspaceFile}
  {files matched : List WorkspaceFile} {entry : TaskArtifactEntry} {destinationRoot : String}
  {destination made written : Destination}

/-! ## The files of a workspace -/

theorem regularFile?_eq_some {leaf : List FileName × FileKind} :
    regularFile? leaf = some file ↔ leaf = (file.1, .regular file.2) := by
  obtain ⟨path, kind⟩ := leaf
  cases kind with
  | regular content => simp [regularFile?, Prod.ext_iff]
  | other => simp [regularFile?]

theorem mem_collectWorkspaceFiles : file ∈ collectWorkspaceFiles workspace ↔
    (file.1, .regular file.2) ∈ workspace.entries.leaves [] := by
  unfold collectWorkspaceFiles
  rw [(List.perm_insertionSort _ _).mem_iff, List.mem_filterMap]
  constructor
  · rintro ⟨leaf, hleaf, hfile⟩
    rwa [← regularFile?_eq_some.mp hfile]
  · intro h
    exact ⟨_, h, regularFile?_eq_some.mpr rfl⟩

/-- Every file has a name. -/
theorem path_ne_nil (h : file ∈ collectWorkspaceFiles workspace) : file.1 ≠ [] := by
  have hnode := NamedEntries.mem_leaves_iff.mp (mem_collectWorkspaceFiles.mp h)
  obtain ⟨name, rest, hpath⟩ := NamedEntries.exists_of_mem_nodes hnode
  simp only [List.nil_append] at hpath
  rw [hpath]
  exact List.cons_ne_nil _ _

theorem apart_collectWorkspaceFiles (workspace : WorkspaceTree) :
    Apart (collectWorkspaceFiles workspace) := by
  have hleaves := apart_leaves workspace.distinct
  have hregular : Apart ((workspace.entries.leaves []).filterMap regularFile?) := by
    unfold Apart at hleaves ⊢
    rw [List.pairwise_filterMap]
    apply hleaves.imp
    intro first second hapart left hleft right hright
    rw [regularFile?_eq_some] at hleft hright
    rw [hleft, hright] at hapart
    exact hapart
  exact hregular.perm (List.perm_insertionSort _ _).symm

theorem captures_of_spells {text : String} (h : Spells text file.1) :
    captures globs file = matchedBy globs file := by
  unfold captures matchedBy
  rw [h.relative, h.1]

/-! ## One pull -/

/-- What a pull has done when it succeeds. -/
theorem exists_of_pull {path : String} {result : TaskArtifactPullResult}
    (h : pullTaskArtifact env.blake3 index path store destinationRoot destination =
      .ok (result, written)) :
    ∃ entry names content made, index.entries.find? (fun entry => entry.path = path) = some entry ∧
      safeRelativePath entry.path = .ok () ∧ destinationNames? entry.path = some names ∧
      Places.makeDirs? [] names.dropLast destination = some made ∧
      Places.writeLeaf? names content made = some written := by
  unfold pullTaskArtifact at h
  split at h
  · cases h
  · rename_i entry hfound
    obtain ⟨_, hsafe, h⟩ := bind_eq_ok_iff.mp h
    obtain ⟨names, hnames, h⟩ := bind_eq_ok_iff.mp h
    obtain ⟨made, hmade, h⟩ := bind_eq_ok_iff.mp h
    obtain ⟨content, -, h⟩ := bind_eq_ok_iff.mp h
    obtain ⟨last, hwritten, h⟩ := bind_eq_ok_iff.mp h
    cases h
    have horIo : ∀ {α : Type} {place : String} {o : Option α} {v : α},
        orIo place o = .ok v → o = some v := by
      intro α place o v ho
      cases o with
      | none => cases ho
      | some w =>
        cases ho
        rfl
    exact ⟨entry, names, content, made, hfound, hsafe, horIo hnames, horIo hmade, horIo hwritten⟩

/-- A pull of an entry that leads back to a file of the store. -/
theorem pull_eq_ok {path : String}
    (hfound : index.entries.find? (fun entry => entry.path = path) = some entry)
    (hsafe : safeRelativePath entry.path = .ok ())
    (hnames : destinationNames? entry.path = some file.1)
    (hcontent : fetchContent env.blake3 store entry.casManifestId = .ok file.2)
    (hmade : Places.makeDirs? [] file.1.dropLast destination = some made)
    (hwritten : Places.writeLeaf? file.1 file.2 made = some written) :
    ∃ result, pullTaskArtifact env.blake3 index path store destinationRoot destination =
      .ok (result, written) := by
  unfold pullTaskArtifact
  rw [hfound]
  simp only [hsafe, hnames, hmade, hcontent, hwritten, orIo, Bind.bind, Except.bind]
  exact ⟨_, rfl⟩

theorem recreated_of_holdsOnly {done : List WorkspaceFile}
    (h : Places.HoldsOnly destination done files)
    (hsame : ∀ other, other ∈ done ↔ other ∈ matched) :
    Recreated destination matched := by
  intro path content
  rw [h.leaf, hsame]

/-! ## Plain paths come back -/

/-- The entry is found by its path and leads back to the file. -/
structure Returns (env : CaptureEnv) (index : TaskArtifactIndex) (store : CasStore)
    (file : WorkspaceFile) (entry : TaskArtifactEntry) : Prop where
  found : index.entries.find? (fun other => other.path = entry.path) = some entry
  safe : safeRelativePath entry.path = .ok ()
  names : destinationNames? entry.path = some file.1
  content : fetchContent env.blake3 store entry.casManifestId = .ok file.2

variable (destinationRoot) in
/-- A pull writes one more file. -/
theorem Returns.pull {done all : List WorkspaceFile} (h : Returns env index store file entry)
    (hholds : Places.HoldsOnly destination done all) (hapart : Apart all)
    (hdone : ∀ other ∈ done, other ∈ all) (hfile : file ∈ all) (hname : file.1 ≠ []) :
    ∃ result written,
      pullTaskArtifact env.blake3 index entry.path store destinationRoot destination =
        .ok (result, written) ∧ Places.HoldsOnly written (file :: done) all := by
  obtain ⟨made, written, hmade, hwritten, hnext⟩ := hholds.put hapart hdone hfile hname
  obtain ⟨result, hpull⟩ := pull_eq_ok h.found h.safe h.names h.content hmade hwritten
  exact ⟨result, written, hpull, hnext⟩

/-- The loop writes the files of the entries, one after the other. -/
theorem restoreEntries_of_returns {done all rest : List WorkspaceFile}
    {entries : List TaskArtifactEntry} {restore : TaskResultCacheRestore}
    (h : List.Forall₂ (Returns env index store) rest entries)
    (hholds : Places.HoldsOnly destination done all) (hapart : Apart all)
    (hdone : ∀ other ∈ done, other ∈ all) (hrest : ∀ other ∈ rest, other ∈ all ∧ other.1 ≠ []) :
    ∃ result written,
      restoreEntries env.blake3 index store destinationRoot (restore, destination) entries =
        .ok (result, written) ∧ Places.HoldsOnly written (rest.reverse ++ done) all := by
  induction h generalizing restore destination done with
  | nil => exact ⟨restore, destination, rfl, hholds⟩
  | @cons file entry rest entries hreturns _ ih =>
    obtain ⟨⟨hfile, hname⟩, hrest⟩ := List.forall_mem_cons.mp hrest
    obtain ⟨pull, next, hpull, hnext⟩ := hreturns.pull destinationRoot hholds hapart hdone
      hfile hname
    obtain ⟨result, written, hrestored, hend⟩ := ih
      hnext (List.forall_mem_cons.mpr ⟨hfile, hdone⟩) hrest
    refine ⟨result, written, ?_, ?_⟩
    · have hstep : restoreEntry env.blake3 index store destinationRoot (restore, destination)
          entry = .ok ({
            restored := restore.restored ++ [pull]
            totalBytes := saturatingAdd restore.totalBytes pull.sizeBytes }, next) := by
        unfold restoreEntry
        rw [hpull]
        rfl
      unfold restoreEntries at hrestored ⊢
      rw [List.foldlM_cons, hstep]
      exact hrestored
    · rw [List.reverse_cons, List.append_assoc, List.singleton_append]
      exact hend

/-- The texts of plain paths are as different as the paths. -/
theorem isPlainPath_relative_inj {other : WorkspaceFile} (hfile : isPlainPath file.1 = true)
    (hother : isPlainPath other.1 = true) (hname : file.1 ≠ []) (hname' : other.1 ≠ [])
    (h : workspaceRelativePath file.1 = workspaceRelativePath other.1) : file.1 = other.1 := by
  obtain ⟨text, hspells, -⟩ := isPlainPath_iff.mp hfile
  obtain ⟨text', hspells', -⟩ := isPlainPath_iff.mp hother
  rw [hspells.relative, hspells'.relative] at h
  rw [← h] at hspells'
  exact Option.some_inj.mp
    ((hspells.destinationNames? hname).symm.trans (hspells'.destinationNames? hname'))

/-- The entry at a place with distinct paths is the first of its path. -/
theorem find?_of_mem (hdistinct : (index.entries.map (·.path)).Nodup)
    (hentry : entry ∈ index.entries) :
    index.entries.find? (fun other => other.path = entry.path) = some entry := by
  cases hfound : index.entries.find? (fun other => other.path = entry.path) with
  | none =>
    have hnone := List.find?_eq_none.mp hfound entry hentry
    simp at hnone
  | some found =>
    have hpath : found.path = entry.path := by simpa using List.find?_some hfound
    rw [List.inj_on_of_nodup_map hdistinct (List.mem_of_find?_eq_some hfound) hentry hpath]

theorem forall₂_mem {α β : Type} {R : α → β → Prop} {left : List α} {right : List β}
    (h : List.Forall₂ R left right) :
    List.Forall₂ (fun a b => a ∈ left ∧ b ∈ right ∧ R a b) left right := by
  induction h with
  | nil => exact List.Forall₂.nil
  | cons hfirst _ ih =>
    refine List.Forall₂.cons ⟨List.mem_cons_self, List.mem_cons_self, hfirst⟩ (ih.imp ?_)
    rintro a b ⟨ha, hb, hR⟩
    exact ⟨List.mem_cons_of_mem _ ha, List.mem_cons_of_mem _ hb, hR⟩

theorem IndexedAs.returns (h : IndexedAs env store file entry)
    (hdistinct : (index.entries.map (·.path)).Nodup) (hentry : entry ∈ index.entries)
    (hplain : isPlainPath file.1 = true) (hname : file.1 ≠ []) :
    Returns env index store file entry := by
  obtain ⟨text, hspells, hblank⟩ := isPlainPath_iff.mp hplain
  have hpath : entry.path = text := h.path.trans hspells.relative
  refine ⟨find?_of_mem hdistinct hentry, ?_, ?_, h.kept.fetchContent⟩
  · rw [hpath]
    exact (hspells.safeRelativePath hname).mpr hblank
  · rw [hpath]
    exact hspells.destinationNames? hname

/-- With plain paths everything that is captured comes back. -/
theorem roundTrips_of_plain {workspace : WorkspaceTree} (hperm : matched.Perm files)
    (hindexed : List.Forall₂ (IndexedAs env store) files index.entries)
    (hsub : matched.Sublist (collectWorkspaceFiles workspace))
    (hplain : ∀ file ∈ matched, isPlainPath file.1 = true) (destinationRoot : String) :
    RoundTrips env.blake3 matched index store destinationRoot := by
  have hapart : Apart matched := (apart_collectWorkspaceFiles workspace).sublist hsub
  have hfiles : ∀ file, file ∈ files ↔ file ∈ matched := fun file => hperm.symm.mem_iff
  have hname : ∀ file ∈ matched, file.1 ≠ [] := fun file h => path_ne_nil (hsub.subset h)
  have hpaths : index.entries.map (·.path) =
      files.map fun file => workspaceRelativePath file.1 := by
    rw [← List.forall₂_eq_eq_eq, List.forall₂_map_left_iff, List.forall₂_map_right_iff]
    exact (hindexed.flip.imp fun _ _ h => h.path)
  have hnodup : files.Nodup := by
    rw [← hperm.nodup_iff]
    exact hapart.imp fun {first second} h => by
      rintro rfl
      exact h.1 List.prefix_rfl
  have hdistinct : (index.entries.map (·.path)).Nodup := by
    rw [hpaths]
    apply hnodup.map_on
    intro first hfirst second hsecond hsame
    rw [hfiles] at hfirst hsecond
    have hplaces := isPlainPath_relative_inj (hplain _ hfirst) (hplain _ hsecond)
      (hname _ hfirst) (hname _ hsecond) hsame
    exact hapart.eq_of_isPrefix hfirst hsecond (hplaces ▸ List.prefix_rfl)
  have hreturns : ∀ file ∈ files, ∀ entry ∈ index.entries, IndexedAs env store file entry →
      Returns env index store file entry := by
    intro file hfile entry hentry hindex
    rw [hfiles] at hfile
    exact hindex.returns hdistinct hentry (hplain _ hfile) (hname _ hfile)
  have hmembers := forall₂_mem hindexed
  -- one entry into an empty destination
  have hpull : ∀ file ∈ matched, ∀ entry, Returns env index store file entry →
      ∃ result destination,
        pullTaskArtifact env.blake3 index entry.path store destinationRoot Places.empty =
          .ok (result, destination) ∧ Recreated destination [file] := by
    intro file hfile entry hentry
    obtain ⟨result, written, hpulled, hholds⟩ := hentry.pull destinationRoot
      (Places.HoldsOnly.empty matched) hapart (by simp) hfile (hname file hfile)
    exact ⟨result, written, hpulled, recreated_of_holdsOnly hholds fun _ => Iff.rfl⟩
  refine ⟨?_, hdistinct, ?_, ?_, ?_⟩
  · rw [← hindexed.length_eq, hperm.length_eq]
  · intro file hfile
    obtain ⟨entry, hentry, hmem, hentries, hindex⟩ :=
      exists_of_forall₂ hmembers.flip ((hfiles file).mpr hfile)
    exact ⟨entry, hentry, hpull file hfile entry (hreturns file hmem entry hentries hindex)⟩
  · intro entry hentry
    obtain ⟨file, hfile, hmem, hentries, hindex⟩ := exists_of_forall₂ hmembers hentry
    exact ⟨file, (hfiles file).mp hfile,
      hpull file ((hfiles file).mp hfile) entry (hreturns file hmem entry hentries hindex)⟩
  · have hall : List.Forall₂ (Returns env index store) files index.entries :=
      hmembers.imp fun file entry h => hreturns file h.1 entry h.2.1 h.2.2
    obtain ⟨result, written, hrestored, hholds⟩ := restoreEntries_of_returns
      hall
      (Places.HoldsOnly.empty matched) hapart (by simp) fun other hother =>
        ⟨(hfiles other).mp hother, hname other ((hfiles other).mp hother)⟩
    refine ⟨result, written, hrestored, recreated_of_holdsOnly hholds ?_⟩
    intro other
    rw [List.append_nil, List.mem_reverse, hfiles]

/-! ## Other paths do not -/

/-- The path is accepted, and there is a file where it leads. -/
def PulledTo (written : Destination) (path : String) : Prop :=
  safeRelativePath path = .ok () ∧ ∃ names content, destinationNames? path = some names ∧
    written names = some (.leaf content)

/-- One pull makes one file, and no other one goes or comes. -/
theorem pull_effect {path : String} {result : TaskArtifactPullResult}
    (h : pullTaskArtifact env.blake3 index path store destinationRoot destination =
      .ok (result, written)) :
    PulledTo written path ∧
      (∀ place content, destination place = some (.leaf content) →
        ∃ now, written place = some (.leaf now)) ∧
      ∀ place content, written place = some (.leaf content) →
        destination place = some (.leaf content) ∨
          ∃ entry ∈ index.entries, safeRelativePath entry.path = .ok () ∧
            destinationNames? entry.path = some place := by
  obtain ⟨entry, names, bytes, made, hfound, hsafe, hnames, hmade, hwritten⟩ := exists_of_pull h
  have hpath : entry.path = path := by simpa using List.find?_some hfound
  have hleaf := Places.leaf_written hmade hwritten
  refine ⟨⟨hpath ▸ hsafe, names, bytes, hpath ▸ hnames, (hleaf _ _).mpr (Or.inl ⟨rfl, rfl⟩)⟩,
    ?_, ?_⟩
  · intro place content hthere
    by_cases hplace : place = names
    · exact ⟨bytes, (hleaf _ _).mpr (Or.inl ⟨hplace, rfl⟩)⟩
    · exact ⟨content, (hleaf _ _).mpr (Or.inr ⟨hplace, hthere⟩)⟩
  · intro place content hthere
    rcases (hleaf _ _).mp hthere with ⟨hplace, -⟩ | ⟨-, hbefore⟩
    · exact Or.inr ⟨entry, List.mem_of_find?_eq_some hfound, hsafe, hplace ▸ hnames⟩
    · exact Or.inl hbefore

/-- The files behind a restore are where its entries lead. -/
theorem restoreEntries_effect {entries : List TaskArtifactEntry}
    {restore result : TaskResultCacheRestore}
    (h : restoreEntries env.blake3 index store destinationRoot (restore, destination) entries =
      .ok (result, written)) :
    (∀ entry ∈ entries, PulledTo written entry.path) ∧
      (∀ place content, destination place = some (.leaf content) →
        ∃ now, written place = some (.leaf now)) ∧
      ∀ place content, written place = some (.leaf content) →
        destination place = some (.leaf content) ∨
          ∃ entry ∈ index.entries, safeRelativePath entry.path = .ok () ∧
            destinationNames? entry.path = some place := by
  induction entries generalizing restore destination with
  | nil =>
    cases h
    exact ⟨by simp, fun _ content hthere => ⟨content, hthere⟩, fun _ _ hthere => Or.inl hthere⟩
  | cons entry entries ih =>
    unfold restoreEntries at h
    rw [List.foldlM_cons] at h
    obtain ⟨⟨after, next⟩, hstep, h⟩ := bind_eq_ok_iff.mp h
    obtain ⟨⟨pull, made⟩, hpull, hnext⟩ := bind_eq_ok_iff.mp hstep
    cases hnext
    obtain ⟨hfirst, hstays, hcomes⟩ := pull_effect hpull
    obtain ⟨hpulled, hkept, hnew⟩ := ih h
    refine ⟨?_, ?_, ?_⟩
    · intro other hother
      rcases List.mem_cons.mp hother with rfl | hrest
      · obtain ⟨hsafe, names, content, hnames, hthere⟩ := hfirst
        obtain ⟨now, hnow⟩ := hkept names content hthere
        exact ⟨hsafe, names, now, hnames, hnow⟩
      · exact hpulled other hrest
    · intro place content hthere
      obtain ⟨now, hnow⟩ := hstays place content hthere
      exact hkept place now hnow
    · intro place content hthere
      rcases hnew place content hthere with hbefore | hentry
      · exact hcomes place content hbefore
      · exact Or.inr hentry

/-- What comes back has plain paths. -/
theorem matchesPlain_of_roundTrips
    (hperm : ((collectWorkspaceFiles workspace).filter (captures globs)).Perm files)
    (hindexed : List.Forall₂ (IndexedAs env store) files index.entries)
    (h : RoundTrips env.blake3 (matchedFiles globs workspace) index store destinationRoot) :
    MatchesPlain globs workspace := by
  obtain ⟨result, written, hrestored, hrecreated⟩ := h.restored
  obtain ⟨hpulled, -, hplaces⟩ := restoreEntries_effect hrestored
  have hmatched : ∀ file, file ∈ matchedFiles globs workspace ↔
      file ∈ collectWorkspaceFiles workspace ∧ matchedBy globs file = true := by
    intro file
    exact List.mem_filter
  -- a file that comes back is where a text without backslashes leads
  have hspells : ∀ file ∈ matchedFiles globs workspace, ∃ text, Spells text file.1 := by
    intro file hfile
    rcases hplaces file.1 file.2 ((hrecreated _ _).mpr hfile) with
      hempty | ⟨entry, hentry, hsafe, hnames⟩
    · cases hempty
    · obtain ⟨other, -, hindex⟩ := exists_of_forall₂ hindexed hentry
      have habsolute : isAbsolute entry.path = false := by
        unfold safeRelativePath leavesDirectory at hsafe
        rw [require_eq_ok] at hsafe
        cases hpath : isAbsolute entry.path with
        | false => rfl
        | true => simp [hpath] at hsafe
      exact exists_spells hnames habsolute (hindex.path ▸ backslash_notMem_relative other.1)
  have hcaptured : ∀ file ∈ matchedFiles globs workspace, file ∈ files := by
    intro file hfile
    obtain ⟨text, htext⟩ := hspells file hfile
    obtain ⟨hmem, hmatch⟩ := (hmatched file).mp hfile
    rw [← hperm.mem_iff, List.mem_filter, captures_of_spells htext]
    exact ⟨hmem, hmatch⟩
  -- as many files are captured as matched, so they are the same
  have hnodup : (matchedFiles globs workspace).Nodup := by
    have hapart := (apart_collectWorkspaceFiles workspace).sublist
      (List.filter_sublist (p := matchedBy globs))
    exact hapart.imp fun {first second} hplace => by
      rintro rfl
      exact hplace.1 List.prefix_rfl
  have hsame : ∀ file ∈ files, file ∈ matchedFiles globs workspace := by
    have hsubperm := hnodup.subperm hcaptured
    have hall := hsubperm.perm_of_length_le (by rw [hindexed.length_eq, h.count])
    exact fun file hfile => hall.symm.subset hfile
  intro file hfile hany
  have hmem : file ∈ matchedFiles globs workspace := by
    rcases hany with hmatch | hcapture
    · exact (hmatched file).mpr ⟨hfile, hmatch⟩
    · exact hsame file (hperm.subset (List.mem_filter.mpr ⟨hfile, hcapture⟩))
  obtain ⟨text, htext⟩ := hspells file hmem
  obtain ⟨entry, hentry, hindex⟩ := exists_of_forall₂ hindexed.flip (hcaptured file hmem)
  have hsafe := (hpulled entry hentry).1
  rw [show entry.path = text from IndexedAs.path hindex |>.trans htext.relative,
    htext.safeRelativePath (path_ne_nil hfile)] at hsafe
  exact isPlainPath_iff.mpr ⟨text, htext, hsafe⟩

/-! ## The law -/

theorem matchesPlain_of_captures {taskRunId : String} {definition : TaskDefinition}
    (haccepts : Accepts env taskRunId definition.outputs globs)
    (hadmits : Admits env taskRunId store (collectWorkspaceFiles workspace))
    (hseparates : NoCollisions env store (collectWorkspaceFiles workspace))
    (h : CapturesAndRestores env taskRunId workspace definition store globs destinationRoot) :
    MatchesPlain globs workspace := by
  obtain ⟨summary, stored, files, hcaptured, hperm, hindexed⟩ :=
    exists_captured haccepts hadmits hseparates
  obtain ⟨summary', stored', hcaptured', htrips⟩ := h
  rw [hcaptured] at hcaptured'
  cases hcaptured'
  exact matchesPlain_of_roundTrips hperm hindexed htrips

/-- Captured artifacts come back, each from its own entry, exactly when every file that a
pattern matches has a path that is text without backslashes and not blank. -/
theorem artifacts_round_trip_iff (env : CaptureEnv) (taskRunId : String)
    (workspace : WorkspaceTree) (definition : TaskDefinition) (store : CasStore)
    (globs : List (List UInt8 → Bool)) (destinationRoot : String)
    (haccepts : Accepts env taskRunId definition.outputs globs)
    (hadmits : Admits env taskRunId store (collectWorkspaceFiles workspace))
    (hseparates : NoCollisions env store (collectWorkspaceFiles workspace)) :
    CapturesAndRestores env taskRunId workspace definition store globs destinationRoot ↔
      MatchesPlain globs workspace := by
  constructor
  · exact matchesPlain_of_captures haccepts hadmits hseparates
  · intro hplain
    obtain ⟨summary, stored, files, hcaptured, hperm, hindexed⟩ :=
      exists_captured haccepts hadmits hseparates
    have hsame : matchedFiles globs workspace =
        (collectWorkspaceFiles workspace).filter (captures globs) := by
      apply List.filter_congr
      intro file hfile
      cases hmatch : matchedBy globs file with
      | true =>
        obtain ⟨text, htext, -⟩ := isPlainPath_iff.mp (hplain file hfile (Or.inl hmatch))
        rw [captures_of_spells htext, hmatch]
      | false =>
        cases hcapture : captures globs file with
        | false => rfl
        | true =>
          obtain ⟨text, htext, -⟩ := isPlainPath_iff.mp (hplain file hfile (Or.inr hcapture))
          rw [captures_of_spells htext, hmatch] at hcapture
          exact hcapture
    have hmatched : (matchedFiles globs workspace).Perm files := by
      rw [hsame]
      exact hperm
    refine ⟨summary, stored, hcaptured, roundTrips_of_plain hmatched hindexed
      List.filter_sublist ?_ destinationRoot⟩
    intro file hfile
    obtain ⟨hmem, hmatch⟩ := List.mem_filter.mp hfile
    exact hplain file hmem (Or.inl hmatch)

/-! ## Two files, and a name with a backslash -/

def demoName (bytes : List UInt8) (h : isFileName bytes = true) : WorkspaceTree where
  entries := .leaf ⟨bytes, h⟩ (.regular "log".toUTF8) .nil
  distinct := List.nodup_singleton _

/-- `app`, and `log` in the directory `out`. -/
def appTree : WorkspaceTree where
  entries := .dir ⟨[0x6F, 0x75, 0x74], by decide⟩
    (.leaf ⟨[0x6C, 0x6F, 0x67], by decide⟩ (.regular "started".toUTF8) .nil)
    (.leaf ⟨[0x61, 0x70, 0x70], by decide⟩ (.regular "log".toUTF8) .nil)
  distinct := by decide

/-- Every pattern matches every path. -/
def demoCapture : CaptureEnv where
  blake3 := sumDigest
  glob _ := .ok fun _ => true
  platformKey := "linux-x86_64"
  projectDataDir projectId := "home/projects/" ++ projectId
  unixNowSeconds := 0

def demoTask : TaskDefinition where
  projectId := "12345678"
  taskName := "build"
  profileName := "dev"
  profileKind := .native
  command := ["make"]
  platforms := []
  cpu := none
  memoryMib := none
  diskMib := none
  interactive := false
  cache := none
  outputs := ["*"]
  features := []
  sandbox := none
  commandDefinitionHash := ""

def demoGlobs : List (List UInt8 → Bool) := [fun _ => true]

theorem demo_accepts : Accepts demoCapture "run" demoTask.outputs demoGlobs :=
  ⟨by decide, by decide, rfl⟩

theorem demo_admits {files : List WorkspaceFile} (hlength : files.length ≤ 2) :
    Admits demoCapture "run" CasStore.empty files where
  rootIds index hindex := by
    have hids : ∀ index < 2, validateRootId (artifactRootId "run" index) = .ok () := by decide
    exact hids index (by omega)
  sound file _ := by
    rintro ⟨bytes, hbytes, -⟩
    cases hbytes

/-- What a capture into an empty store hashes. -/
def hashedTexts (files : List WorkspaceFile) : List ByteArray :=
  files.map Prod.snd ++ files.map fun file => manifestStream (singleChunk demoCapture file)

theorem demo_noCollisions {files : List WorkspaceFile}
    (hdistinct : ((hashedTexts files).map demoCapture.blake3.hex).Nodup) :
    NoCollisions demoCapture CasStore.empty files := by
  have hmem : ∀ s, Hashed demoCapture CasStore.empty files s → s ∈ hashedTexts files := by
    intro s hs
    cases hs with
    | content hfile => exact List.mem_append_left _ (List.mem_map_of_mem hfile)
    | manifest hfile =>
      exact List.mem_append_right _
        (List.mem_map_of_mem (f := fun file => manifestStream (singleChunk demoCapture file)) hfile)
    | stored hfile hstored => cases hstored
  intro s t hs ht hhex
  exact List.inj_on_of_nodup_map hdistinct (hmem s hs) (hmem t ht) hhex

/-- Both files come back. -/
theorem app_comes_back :
    CapturesAndRestores demoCapture "run" appTree demoTask CasStore.empty demoGlobs "pulled" := by
  have hlength : (collectWorkspaceFiles appTree).length ≤ 2 := by decide
  have hdistinct : ((hashedTexts (collectWorkspaceFiles appTree)).map
      demoCapture.blake3.hex).Nodup := by decide +kernel
  refine (artifacts_round_trip_iff demoCapture "run" appTree demoTask CasStore.empty demoGlobs
    "pulled" demo_accepts (demo_admits hlength) (demo_noCollisions hdistinct)).mpr ?_
  have hplain : (collectWorkspaceFiles appTree).all (fun file => isPlainPath file.1) = true := by
    decide
  exact fun file hfile _ => List.all_eq_true.mp hplain file hfile

def backslashName : FileName := ⟨[0x61, 0x5C, 0x62], by decide⟩

/-- The file `a\b` of one directory is captured and pulled as `a/b`. -/
theorem backslash_moves_a_file :
    ¬∀ (env : CaptureEnv) (taskRunId : String) (workspace : WorkspaceTree)
      (definition : TaskDefinition) (store : CasStore) (globs : List (List UInt8 → Bool))
      (destinationRoot : String),
      Accepts env taskRunId definition.outputs globs →
      Admits env taskRunId store (collectWorkspaceFiles workspace) →
      NoCollisions env store (collectWorkspaceFiles workspace) →
      CapturesAndRestores env taskRunId workspace definition store globs destinationRoot := by
  intro hall
  have hdistinct : ((hashedTexts (collectWorkspaceFiles
      (demoName backslashName.bytes backslashName.admitted))).map
        demoCapture.blake3.hex).Nodup := by decide +kernel
  have htrips := hall demoCapture "run" (demoName backslashName.bytes backslashName.admitted)
    demoTask CasStore.empty demoGlobs "pulled" demo_accepts (demo_admits (by decide))
    (demo_noCollisions hdistinct)
  have hplain := matchesPlain_of_captures demo_accepts (demo_admits (by decide))
    (demo_noCollisions hdistinct) htrips
  have hbackslash : isPlainPath [backslashName] = true :=
    hplain ([backslashName], "log".toUTF8) List.mem_cons_self (Or.inl rfl)
  exact absurd hbackslash (by decide)

end DevRelay.Artifacts
