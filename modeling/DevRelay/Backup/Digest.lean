import DevRelay.Backup.Generation
import Mathlib.Data.List.Flatten
import Mathlib.Data.List.Forall2

/-!
# The digest of a directory

`hash_directory` hashes one line for each file: the rendered path, a colon, the
digest of the contents.  Paths are not escaped.  Two directories with the same
stream of lines have the same files only where the stream is cut alike.
-/

namespace DevRelay.Backup

open DevRelay.Core DevRelay.Lib

/-! ## Cutting a text at one of its separators -/

theorem append_cons_inj_of_count {α : Type} [BEq α] [LawfulBEq α] {separator : α}
    {xs ys s t : List α} (hcount : xs.count separator = ys.count separator)
    (h : xs ++ separator :: s = ys ++ separator :: t) : xs = ys ∧ s = t := by
  induction xs generalizing ys with
  | nil =>
    cases ys with
    | nil => exact ⟨rfl, (List.cons.inj h).2⟩
    | cons y ys =>
      have hhead : separator = y := (List.cons.inj h).1
      rw [← hhead, List.count_nil, List.count_cons_self] at hcount
      omega
  | cons x xs ih =>
    cases ys with
    | nil =>
      have hhead : x = separator := (List.cons.inj h).1
      rw [hhead, List.count_nil, List.count_cons_self] at hcount
      omega
    | cons y ys =>
      obtain ⟨hhead, htail⟩ := List.cons.inj h
      rw [hhead, List.count_cons, List.count_cons] at hcount
      obtain ⟨hxs, hst⟩ := ih (by omega) htail
      exact ⟨by rw [hhead, hxs], hst⟩

/-! ## Lines -/

variable {env : BackupEnv} {tree other : DirTree}

/-- What `hash_directory` feeds for a file. -/
def BackupEnv.line (env : BackupEnv) (file : Location × List UInt8) : List Char :=
  (env.renderPath file.1).toList ++ ':' :: ((env.hashFile file.2).toList ++ ['\n'])

theorem foldl_updateFileHash (env : BackupEnv) (files : List (Location × List UInt8))
    (hasher : Hasher) :
    (files.foldl env.updateFileHash hasher).fed =
      hasher.fed ++ (String.ofList (files.flatMap env.line)).toByteArray := by
  induction files generalizing hasher with
  | nil => simp
  | cons file rest ih =>
    have hline : String.ofList (env.line file) =
        env.renderPath file.1 ++ ":" ++ env.hashFile file.2 ++ "\n" := by
      apply String.toList_inj.mp
      simp [BackupEnv.line]
    have hstep : (env.updateFileHash hasher file).fed =
        hasher.fed ++ (String.ofList (env.line file)).toByteArray := by
      rw [hline]
      simp only [String.toByteArray_append, ← ByteArray.append_assoc]
      rfl
    rw [List.foldl_cons, ih, hstep, List.flatMap_cons, String.ofList_append,
      String.toByteArray_append, ByteArray.append_assoc]

/-- The stream is the text of the lines. -/
theorem directoryStream_eq (env : BackupEnv) (tree : DirTree) :
    env.directoryStream tree =
      (String.ofList ((sortedFilesRecursive tree).flatMap env.line)).toByteArray := by
  unfold BackupEnv.directoryStream
  rw [foldl_updateFileHash]
  exact ByteArray.empty_append

theorem directoryStream_inj : env.directoryStream tree = env.directoryStream other ↔
    (sortedFilesRecursive tree).flatMap env.line =
      (sortedFilesRecursive other).flatMap env.line := by
  rw [directoryStream_eq, directoryStream_eq, String.toByteArray_inj, String.ofList_inj]

theorem hashFile_no_newline (env : BackupEnv) (contents : List UInt8) :
    '\n' ∉ (env.hashFile contents).toList := by
  intro hmem
  have hdigit := List.all_eq_true.mp (env.digest.hex_digits ⟨contents.toArray⟩) '\n' hmem
  exact absurd hdigit (by decide)

theorem length_hashFile (env : BackupEnv) (contents : List UInt8) :
    (env.hashFile contents).toList.length = blake3HexLen := env.digest.hex_length _

/-! ## Streams that are cut alike -/

/-- The rendered paths have as many line breaks, and one rendering is of one path. -/
def BackupEnv.CutAlike (env : BackupEnv) (file other : Location × List UInt8) : Prop :=
  (env.renderPath file.1).toList.count '\n' = (env.renderPath other.1).toList.count '\n' ∧
    (env.renderPath file.1 = env.renderPath other.1 → file.1 = other.1)

theorem line_inj {file file' : Location × List UInt8} {s t : List Char}
    (halike : env.CutAlike file file') (h : env.line file ++ s = env.line file' ++ t) :
    file.1 = file'.1 ∧ env.hashFile file.2 = env.hashFile file'.2 ∧ s = t := by
  have hcount : ∀ f : Location × List UInt8,
      ((env.renderPath f.1).toList ++ ':' :: (env.hashFile f.2).toList).count '\n' =
        (env.renderPath f.1).toList.count '\n' := by
    intro f
    rw [List.count_append, List.count_cons, List.count_eq_zero.mpr (hashFile_no_newline env f.2)]
    rfl
  have hsplit : ∀ (f : Location × List UInt8) (rest : List Char), env.line f ++ rest =
      ((env.renderPath f.1).toList ++ ':' :: (env.hashFile f.2).toList) ++ '\n' :: rest := by
    intro f rest
    simp [BackupEnv.line]
  rw [hsplit, hsplit] at h
  obtain ⟨hline, hrest⟩ := append_cons_inj_of_count
    ((hcount file).trans (halike.1.trans (hcount file').symm)) h
  have hlength : (':' :: (env.hashFile file.2).toList).length =
      (':' :: (env.hashFile file'.2).toList).length := by
    rw [List.length_cons, List.length_cons, length_hashFile, length_hashFile]
  obtain ⟨hpath, hhash⟩ := List.append_inj' hline hlength
  refine ⟨halike.2 (String.toList_inj.mp hpath), ?_, hrest⟩
  exact String.toList_inj.mp (List.cons.inj hhash).2

/-- Where a digest has one source, streams that are cut alike are of the same files. -/
theorem eq_of_cutAlike {files files' : List (Location × List UInt8)}
    (halike : List.Forall₂ env.CutAlike files files')
    (hdigest : ∀ file ∈ files, ∀ file' ∈ files', env.hashFile file.2 = env.hashFile file'.2 →
      file.2 = file'.2)
    (h : files.flatMap env.line = files'.flatMap env.line) : files = files' := by
  induction halike with
  | nil => rfl
  | @cons file file' rest rest' hfirst _ ih =>
    rw [List.flatMap_cons, List.flatMap_cons] at h
    obtain ⟨hpath, hhash, htail⟩ := line_inj hfirst h
    have hcontents := hdigest file List.mem_cons_self file' List.mem_cons_self hhash
    have hrest := ih (fun f hf f' hf' =>
      hdigest f (List.mem_cons_of_mem _ hf) f' (List.mem_cons_of_mem _ hf')) htail
    rw [hrest, Prod.ext hpath hcontents]

theorem forall₂_cutAlike_self (env : BackupEnv) (files : List (Location × List UInt8)) :
    List.Forall₂ env.CutAlike files files :=
  List.forall₂_same.mpr fun _ _ => ⟨rfl, fun _ => rfl⟩

/-! ## Files -/

theorem mem_filesIn {location : Location} {contents : List UInt8} :
    (location, contents) ∈ filesIn tree ↔ nodeIn tree location = some (.file contents) := by
  unfold filesIn nodeIn
  rw [lookup_eq_some_iff_mem tree.distinct, List.mem_filterMap]
  constructor
  · rintro ⟨⟨place, _ | bytes⟩, hnode, heq⟩
    · cases heq
    · cases heq
      exact hnode
  · exact fun hnode => ⟨_, hnode, rfl⟩

theorem map_fst_filterMap_sublist {β γ : Type} {pick : Location × β → Option (Location × γ)}
    (hpick : ∀ node file, pick node = some file → file.1 = node.1) (nodes : List (Location × β)) :
    ((nodes.filterMap pick).map Prod.fst).Sublist (nodes.map Prod.fst) := by
  induction nodes with
  | nil => exact List.Sublist.refl _
  | cons node rest ih =>
    cases hnode : pick node with
    | none =>
      rw [List.filterMap_cons_none hnode]
      exact ih.cons node.1
    | some file =>
      rw [List.filterMap_cons_some hnode, List.map_cons, hpick _ _ hnode]
      exact ih.cons_cons node.1

theorem nodup_filesIn (tree : DirTree) : ((filesIn tree).map Prod.fst).Nodup := by
  apply (map_fst_filterMap_sublist ?_ _).nodup tree.distinct
  rintro ⟨place, _ | bytes⟩ file hfile
  · cases hfile
  · cases hfile
    rfl

theorem mem_sortedFiles {file : Location × List UInt8} :
    file ∈ sortedFilesRecursive tree ↔ file ∈ filesIn tree :=
  (List.perm_insertionSort _ _).mem_iff

theorem sorted_sortedFiles (tree : DirTree) :
    (sortedFilesRecursive tree).Pairwise fun a b => a.1 ≤ b.1 := by
  have htotal : Std.Total fun a b : Location × List UInt8 => a.1 ≤ b.1 :=
    ⟨fun a b => le_total a.1 b.1⟩
  have htrans : IsTrans (Location × List UInt8) fun a b => a.1 ≤ b.1 :=
    ⟨fun _ _ _ hab hbc => le_trans hab hbc⟩
  exact List.pairwise_insertionSort _ _

theorem line_pos (env : BackupEnv) (file : Location × List UInt8) : 0 < (env.line file).length := by
  simp [BackupEnv.line]

/-- Files that are all in the other directory, with the same stream, are all its files. -/
theorem sortedFiles_eq_of_subset (hsubset : ∀ file ∈ filesIn tree, file ∈ filesIn other)
    (h : (sortedFilesRecursive tree).flatMap env.line =
      (sortedFilesRecursive other).flatMap env.line) :
    sortedFilesRecursive tree = sortedFilesRecursive other := by
  have hperm : (filesIn tree).Perm (filesIn other) := by
    have hsub : (filesIn tree).Subperm (filesIn other) :=
      List.subperm_of_subset (nodup_filesIn tree).of_map hsubset
    obtain ⟨kept, hkept, hsublist⟩ := hsub
    obtain ⟨rest, hrest⟩ := hsublist.exists_perm_append
    have hlength : ∀ t : DirTree, ((sortedFilesRecursive t).flatMap env.line).length =
        ((filesIn t).map fun file => (env.line file).length).sum := by
      intro t
      rw [List.length_flatMap]
      exact ((List.perm_insertionSort _ _).map _).sum_nat
    have hsum := (hlength tree).symm.trans ((congrArg List.length h).trans (hlength other))
    have hother := (hrest.map fun file => (env.line file).length).sum_nat
    have hsame := (hkept.map fun file => (env.line file).length).sum_nat
    rw [List.map_append, List.sum_append] at hother
    cases rest with
    | nil =>
      rw [List.append_nil] at hrest
      exact (hrest.trans hkept).symm
    | cons file rest =>
      have hpos := line_pos env file
      rw [List.map_cons, List.sum_cons] at hother
      omega
  have hsorted : (sortedFilesRecursive tree).Perm (sortedFilesRecursive other) :=
    (List.perm_insertionSort _ _).trans (hperm.trans (List.perm_insertionSort _ _).symm)
  refine hsorted.eq_of_pairwise ?_ (sorted_sortedFiles tree) (sorted_sortedFiles other)
  intro file file' hfile hfile' hle hge
  have hmem := hsubset file (mem_sortedFiles.mp hfile)
  exact List.inj_on_of_nodup_map (nodup_filesIn other) hmem (mem_sortedFiles.mp hfile')
    (le_antisymm hle hge)

end DevRelay.Backup
