import DevRelay.Lib.FileTree
import Mathlib.Data.List.Nodup
import Mathlib.Algebra.Ring.Nat

/-!
# Copying directories

A directory as it is read: its entries one after the other, links followed.  A
copy goes through them and writes a store of nodes, a file byte by byte, so that
it can be stopped within one.  What a copy has to write is a list of nodes with
their locations; how far it comes is said about this list.
-/

namespace DevRelay.Lib

/-- What is at a location. -/
inductive DirNode where
  | directory
  | file (contents : List UInt8)
  deriving DecidableEq, Repr

/-- The entries of a directory: the first one, and the entries behind it. -/
inductive Entries where
  | nil
  | file (name : String) (contents : List UInt8) (rest : Entries)
  | dir (name : String) (children rest : Entries)
  deriving DecidableEq, Repr

/-- Everything below a directory, in the order of a copy. -/
def Entries.nodes : Location → Entries → List (Location × DirNode)
  | _, nil => []
  | base, file name contents rest => (base ++ [name], .file contents) :: nodes base rest
  | base, dir name children rest =>
    (base ++ [name], .directory) :: (nodes (base ++ [name]) children ++ nodes base rest)

/-- No two entries of a directory have the same name. -/
structure DirTree where
  entries : Entries
  distinct : ((entries.nodes []).map Prod.fst).Nodup
  deriving DecidableEq

def DirTree.empty : DirTree := ⟨.nil, List.nodup_nil⟩

/-- Nodes under another directory. -/
def under (base : Location) (nodes : List (Location × DirNode)) : List (Location × DirNode) :=
  nodes.map fun node => (base ++ node.1, node.2)

theorem Entries.nodes_eq_under (base : Location) (entries : Entries) :
    entries.nodes base = under base (entries.nodes []) := by
  induction entries generalizing base with
  | nil => rfl
  | file name contents rest ih =>
    rw [nodes, ih base]
    rfl
  | dir name children rest ihChildren ihRest =>
    rw [nodes, nodes, ihChildren (base ++ [name]), ihRest base, ihChildren ([] ++ [name])]
    simp [under, Function.comp_def]

theorem under_fst (base : Location) (nodes : List (Location × DirNode)) :
    (under base nodes).map Prod.fst = (nodes.map Prod.fst).map (base ++ ·) := by
  simp [under, Function.comp_def]

/-- Every entry has a name. -/
theorem Entries.ne_of_mem_nodes {base : Location} {entries : Entries}
    {node : Location × DirNode} (h : node ∈ entries.nodes base) :
    ∃ name rest, node.1 = base ++ name :: rest := by
  induction entries generalizing base with
  | nil => cases h
  | file name contents rest ih =>
    rcases List.mem_cons.mp h with rfl | hrest
    · exact ⟨name, [], rfl⟩
    · exact ih hrest
  | dir name children rest ihChildren ihRest =>
    rcases List.mem_cons.mp h with rfl | hmem
    · exact ⟨name, [], rfl⟩
    · rcases List.mem_append.mp hmem with hchildren | hrest
      · obtain ⟨child, below, hlocation⟩ := ihChildren hchildren
        refine ⟨name, child :: below, ?_⟩
        rw [hlocation, List.append_assoc, List.singleton_append]
      · exact ihRest hrest

/-- A directory and what is below it. -/
def DirTree.rooted (base : Location) (tree : DirTree) : List (Location × DirNode) :=
  (base, .directory) :: tree.entries.nodes base

theorem DirTree.exists_of_mem_rooted {base : Location} {tree : DirTree}
    {node : Location × DirNode} (h : node ∈ tree.rooted base) :
    ∃ rest, node.1 = base ++ rest := by
  rcases List.mem_cons.mp h with rfl | hnode
  · exact ⟨[], (List.append_nil base).symm⟩
  · obtain ⟨name, rest, hlocation⟩ := Entries.ne_of_mem_nodes hnode
    exact ⟨name :: rest, hlocation⟩

theorem DirTree.nodup_rooted (base : Location) (tree : DirTree) :
    ((tree.rooted base).map Prod.fst).Nodup := by
  unfold rooted
  rw [List.map_cons, List.nodup_cons]
  refine ⟨?_, ?_⟩
  · intro hmem
    obtain ⟨node, hnode, hbase⟩ := List.mem_map.mp hmem
    obtain ⟨name, rest, hlocation⟩ := Entries.ne_of_mem_nodes hnode
    rw [hbase] at hlocation
    have hlength := congrArg List.length hlocation
    simp at hlength
  · rw [Entries.nodes_eq_under, under_fst]
    exact List.Nodup.map (List.append_right_injective base) tree.distinct

/-! ## The nodes of a store -/

abbrev DirStore := Location → Option DirNode

/-- The store has these nodes. -/
def Holds (store : DirStore) (nodes : List (Location × DirNode)) : Prop :=
  ∀ node ∈ nodes, store node.1 = some node.2

/-- The store with these nodes in the place of its own. -/
def overlay (store : DirStore) (nodes : List (Location × DirNode)) : DirStore :=
  nodes.foldl (fun store node => assign store node.1 node.2) store

/-- A directory is not made over a file, nor a file over a directory. -/
def Fits (store : DirStore) : Location × DirNode → Prop
  | (location, .directory) => ∀ contents, store location ≠ some (.file contents)
  | (location, .file _) => store location ≠ some .directory

variable {store : DirStore} {location : Location} {node : Location × DirNode}
  {nodes : List (Location × DirNode)}

theorem holds_cons : Holds store (node :: nodes) ↔
    store node.1 = some node.2 ∧ Holds store nodes := List.forall_mem_cons

theorem holds_congr {store' : DirStore} (h : ∀ node ∈ nodes, store' node.1 = store node.1) :
    Holds store' nodes ↔ Holds store nodes := by
  constructor
  · intro hholds node hnode
    rw [← h node hnode]
    exact hholds node hnode
  · intro hholds node hnode
    rw [h node hnode]
    exact hholds node hnode

theorem overlay_of_notMem (h : location ∉ nodes.map Prod.fst) :
    overlay store nodes location = store location := by
  induction nodes generalizing store with
  | nil => rfl
  | cons node rest ih =>
    rw [List.map_cons, List.mem_cons, not_or] at h
    have hrest : overlay (assign store node.1 node.2) rest location =
        assign store node.1 node.2 location := ih h.2
    rw [assign_of_ne h.1] at hrest
    exact hrest

theorem overlay_of_mem (hdistinct : (nodes.map Prod.fst).Nodup) (h : node ∈ nodes) :
    overlay store nodes node.1 = some node.2 := by
  induction nodes generalizing store with
  | nil => cases h
  | cons first rest ih =>
    rw [List.map_cons, List.nodup_cons] at hdistinct
    rcases List.mem_cons.mp h with rfl | hrest
    · have hkept : overlay (assign store node.1 node.2) rest node.1 =
          assign store node.1 node.2 node.1 := overlay_of_notMem hdistinct.1
      rw [assign_self] at hkept
      exact hkept
    · exact ih hdistinct.2 hrest

theorem holds_overlay (hdistinct : (nodes.map Prod.fst).Nodup) :
    Holds (overlay store nodes) nodes := fun _ h => overlay_of_mem hdistinct h

/-! ## Looking up a node -/

theorem lookup_eq_some_iff_mem {kind : DirNode} (hdistinct : (nodes.map Prod.fst).Nodup) :
    nodes.lookup location = some kind ↔ (location, kind) ∈ nodes := by
  rw [List.lookup_eq_some_iff]
  constructor
  · rintro ⟨before, behind, rfl, _⟩
    exact List.mem_append_right _ List.mem_cons_self
  · intro hmem
    obtain ⟨before, behind, rfl⟩ := List.append_of_mem hmem
    refine ⟨before, behind, rfl, ?_⟩
    intro node hnode
    rw [List.map_append, List.map_cons] at hdistinct
    have hapart := (List.nodup_append.mp hdistinct).2.2 node.1 (List.mem_map_of_mem hnode)
      location List.mem_cons_self
    exact bne_iff_ne.mpr hapart.symm

/-- What is written comes before what was there. -/
theorem overlay_eq_lookup (hdistinct : (nodes.map Prod.fst).Nodup) :
    overlay store nodes location = (nodes.lookup location).or (store location) := by
  cases hfound : nodes.lookup location with
  | some kind =>
    have hmem := (lookup_eq_some_iff_mem hdistinct).mp hfound
    exact overlay_of_mem hdistinct hmem
  | none =>
    apply overlay_of_notMem
    intro hmem
    obtain ⟨⟨place, kind⟩, hnode, rfl⟩ := List.mem_map.mp hmem
    rw [(lookup_eq_some_iff_mem hdistinct).mpr hnode] at hfound
    cases hfound

theorem lookup_under (base : Location) :
    (under base nodes).lookup (base ++ location) = nodes.lookup location := by
  induction nodes with
  | nil => rfl
  | cons node rest ih =>
    have hcons : under base (node :: rest) = (base ++ node.1, node.2) :: under base rest := rfl
    have hsame : (base ++ location == base ++ node.1) = (location == node.1) := by
      rw [Bool.eq_iff_iff, beq_iff_eq, beq_iff_eq, List.append_cancel_left_eq]
    rw [hcons, List.lookup_cons, hsame, ih, ← List.lookup_cons]

/-- Under another directory nothing is found. -/
theorem lookup_under_of_ne {base : Location} (h : ∀ rest, location ≠ base ++ rest) :
    (under base nodes).lookup location = none := by
  rw [List.lookup_eq_none_iff]
  intro node hnode
  obtain ⟨inner, _, rfl⟩ := List.mem_map.mp hnode
  exact bne_iff_ne.mpr (h inner.1)

theorem DirTree.rooted_eq_under (base : Location) (tree : DirTree) :
    tree.rooted base = under base (([], .directory) :: tree.entries.nodes []) := by
  unfold rooted
  rw [Entries.nodes_eq_under]
  simp [under]

theorem DirTree.lookup_rooted_cons (base : Location) (tree : DirTree) (name : String)
    (rest : Location) :
    (tree.rooted base).lookup (base ++ name :: rest) =
      (tree.entries.nodes []).lookup (name :: rest) := by
  rw [rooted_eq_under, lookup_under, List.lookup_cons]
  rfl

theorem DirTree.lookup_rooted_of_ne {base : Location} {tree : DirTree}
    (h : ∀ rest, location ≠ base ++ rest) : (tree.rooted base).lookup location = none := by
  rw [rooted_eq_under]
  exact lookup_under_of_ne h

/-! ## Writing them -/

namespace DirStore

/-- `create_dir` that takes a directory that is there. -/
def makeDirectory? (location : Location) (store : DirStore) : Option DirStore :=
  match store location with
  | none => some (assign store location .directory)
  | some .directory => some store
  | some (.file _) => none

/-- A new file, or an old one cut to nothing. -/
def createFile? (location : Location) (store : DirStore) : Option DirStore :=
  match store location with
  | some .directory => none
  | _ => some (assign store location (.file []))

def appendByte (location : Location) (byte : UInt8) (store : DirStore) : DirStore :=
  match store location with
  | some (.file contents) => assign store location (.file (contents ++ [byte]))
  | _ => store

def fileLength (location : Location) (store : DirStore) : Nat :=
  match store location with
  | some (.file contents) => contents.length
  | _ => 0

end DirStore

open DirStore

section Copying

variable {ε : Type}

def writeBytes (location : Location) : List UInt8 → Prog DirStore ε Unit
  | [] => pure ()
  | byte :: rest => do
    Prog.write (appendByte location byte)
    writeBytes location rest

/-- Open the source, create the target, and write it. -/
def copyFile (error : ε) (location : Location) (contents : List UInt8) : Prog DirStore ε Unit := do
  Prog.write id
  Prog.attempt (createFile? location) error
  writeBytes location contents

/-- A file is asked for its length behind the copy. -/
def copyNode (error : Location → ε) : Location × DirNode → Prog DirStore ε Unit
  | (location, .directory) => Prog.attempt (makeDirectory? location) (error location)
  | (location, .file contents) => do
    copyFile (error location) location contents
    let _ ← Prog.query (fileLength location)
    pure ()

def copyNodes (error : Location → ε) : List (Location × DirNode) → Prog DirStore ε Unit
  | [] => pure ()
  | node :: rest => do
    copyNode error node
    copyNodes error rest

theorem copyNodes_append (error : Location → ε) (first second : List (Location × DirNode)) :
    copyNodes error (first ++ second) =
      copyNodes error first >>= fun _ => copyNodes error second := by
  induction first with
  | nil => rfl
  | cons node rest ih =>
    rw [List.cons_append, copyNodes, copyNodes, ih, Prog.bind_assoc]

/-- The statements of a copy. -/
def nodeCost : DirNode → Nat
  | .directory => 1
  | .file contents => contents.length + 3

def copyCost (nodes : List (Location × DirNode)) : Nat :=
  (nodes.map fun node => nodeCost node.2).sum

/-! ## One node -/

variable {error : Location → ε} {fault : Fault ε} {n : Nat} {contents written : List UInt8}

theorem assign_eq_self {kind : DirNode} (h : store location = some kind) :
    assign store location kind = store := by
  funext other
  by_cases hother : other = location
  · rw [hother, assign_self, h]
  · exact assign_of_ne hother

theorem assign_assign (store : DirStore) (location : Location) (node other : DirNode) :
    assign (assign store location node) location other = assign store location other := by
  funext l
  by_cases hl : l = location
  · rw [hl, assign_self, assign_self]
  · rw [assign_of_ne hl, assign_of_ne hl, assign_of_ne hl]

theorem appendByte_eq {byte : UInt8} (h : store location = some (.file written)) :
    appendByte location byte store = assign store location (.file (written ++ [byte])) := by
  unfold appendByte
  rw [h]

theorem writeBytes_through (h : store location = some (.file written))
    (hfault : ∀ i < contents.length, fault (n + i) = none) :
    (writeBytes location contents).exec fault n store =
        (.ok (), assign store location (.file (written ++ contents))) ∧
      (writeBytes location contents).ran fault n store = contents.length := by
  induction contents generalizing n store written with
  | nil =>
    have hsame := assign_eq_self h
    rw [List.append_nil, hsame]
    exact ⟨rfl, rfl⟩
  | cons byte rest ih =>
    have hfirst : fault n = none := hfault 0 (by simp)
    have hrest : ∀ i < rest.length, fault (n + 1 + i) = none := by
      intro i hi
      rw [Nat.add_assoc, Nat.add_comm 1 i]
      exact hfault (i + 1) (by simpa using hi)
    have hwrite : appendByte location byte store = _ := appendByte_eq h
    have hfile : appendByte location byte store location = some (.file (written ++ [byte])) := by
      rw [hwrite, assign_self]
    obtain ⟨hexec, hran⟩ := ih hfile hrest
    have hstep : (writeBytes location (byte :: rest) : Prog DirStore ε Unit) =
        .stmt (appendByte location byte) fun _ => writeBytes location rest := rfl
    rw [hstep]
    refine ⟨?_, ?_⟩
    · rw [Prog.exec_stmt hfirst, hexec, hwrite, assign_assign, List.append_assoc]
      rfl
    · simp only [Prog.ran, hfirst]
      rw [hran, List.length_cons]

/-- Stopped within the file, a copy leaves the bytes it has written. -/
theorem writeBytes_stops {i : Nat} (h : store location = some (.file written))
    (hi : i < contents.length) (hfault : fault (n + i) ≠ none) :
    ∃ e k, k < contents.length ∧ (writeBytes location contents).exec fault n store =
      (.error e, assign store location (.file (written ++ contents.take k))) := by
  induction contents generalizing n i store written with
  | nil => exact absurd hi (by simp)
  | cons byte rest ih =>
    have hstep : (writeBytes location (byte :: rest) : Prog DirStore ε Unit) =
        .stmt (appendByte location byte) fun _ => writeBytes location rest := rfl
    rw [hstep]
    cases hfirst : fault n with
    | some e =>
      have hsame := assign_eq_self h
      refine ⟨e, 0, by simp, ?_⟩
      rw [List.take_zero, List.append_nil, hsame]
      simp only [Prog.exec, hfirst]
    | none =>
      cases i with
      | zero => exact absurd hfirst hfault
      | succ i =>
        have hwrite : appendByte location byte store = _ := appendByte_eq h
        have hfile : appendByte location byte store location =
            some (.file (written ++ [byte])) := by
          rw [hwrite, assign_self]
        obtain ⟨e, k, hk, hexec⟩ := ih (n := n + 1) (i := i) hfile
          (by simpa using hi) (by rwa [Nat.add_assoc, Nat.add_comm 1 i])
        refine ⟨e, k + 1, by simpa using hk, ?_⟩
        rw [Prog.exec_stmt hfirst, hexec, hwrite, assign_assign, List.append_assoc]
        rfl

theorem makeDirectory?_of_fits (h : Fits store (location, .directory)) :
    makeDirectory? location store = some (assign store location .directory) := by
  unfold makeDirectory?
  cases hat : store location with
  | none => rfl
  | some node =>
    cases node with
    | directory =>
      dsimp only
      rw [assign_eq_self hat]
    | file contents => exact absurd hat (h contents)

theorem createFile?_of_fits (h : Fits store (location, .file contents)) :
    createFile? location store = some (assign store location (.file [])) := by
  unfold createFile?
  cases hat : store location with
  | none => rfl
  | some node =>
    cases node with
    | directory => exact absurd hat h
    | file contents => rfl

/-- The first statement of the copy of a node is not run. -/
theorem copyNode_not_begun {e : ε} (hfault : fault n = some e) :
    (copyNode error node).exec fault n store = (.error e, store) := by
  obtain ⟨location, _ | contents⟩ := node
  · simp [copyNode, Prog.attempt, Prog.exec, hfault]
  · have hstep : (copyNode error (location, .file contents) : Prog DirStore ε Unit) =
        .stmt id fun _ => (Prog.attempt (createFile? location) (error location) >>=
          fun _ => writeBytes location contents) >>= fun _ =>
            Prog.query (fileLength location) >>= fun _ => pure () := rfl
    rw [hstep]
    simp only [Prog.exec, hfault]

theorem copyDirectory_through (hfault : fault n = none) (h : Fits store (location, .directory)) :
    (copyNode error (location, .directory)).exec fault n store =
        (.ok (), assign store location .directory) ∧
      (copyNode error (location, .directory)).ran fault n store = 1 := by
  have hmade := makeDirectory?_of_fits h
  simp [copyNode, Prog.attempt, Prog.exec, Prog.ran, hfault, hmade]

/-- The copy of a file, behind the opening of the source. -/
theorem exec_copyFile_begun (hfault : fault n = none) (hcreate : fault (n + 1) = none)
    (h : Fits store (location, .file contents)) :
    (copyNode error (location, .file contents)).exec fault n store =
        (writeBytes location contents >>= fun _ => Prog.query (fileLength location) >>=
          fun _ => pure ()).exec fault (n + 2) (assign store location (.file [])) ∧
      (copyNode error (location, .file contents)).ran fault n store =
        (writeBytes location contents >>= fun _ => Prog.query (fileLength location) >>=
          fun _ => pure ()).ran fault (n + 2) (assign store location (.file [])) + 2 := by
  have hmade := createFile?_of_fits h
  unfold copyNode copyFile
  simp only [Prog.bind_assoc]
  refine ⟨?_, ?_⟩
  · rw [Prog.exec_write_bind hfault, id_eq, Prog.exec_attempt_bind hcreate hmade]
  · rw [Prog.ran_write_bind hfault, id_eq, Prog.ran_attempt_bind hcreate hmade]

/-- The copy of a file that is created and not written to its end. -/
theorem copyFile_cut {i : Nat} (hfault : fault n = none) (hcreate : fault (n + 1) = none)
    (h : Fits store (location, .file contents)) (hi : i < contents.length)
    (hwrite : fault (n + 2 + i) ≠ none) :
    ∃ e k, k < contents.length ∧ (copyNode error (location, .file contents)).exec fault n store =
      (.error e, assign store location (.file (contents.take k))) := by
  obtain ⟨e, k, hk, hexec⟩ := writeBytes_stops
    (assign_self (m := store) (k := location) (v := DirNode.file [])) hi hwrite
  refine ⟨e, k, hk, ?_⟩
  rw [(exec_copyFile_begun hfault hcreate h).1, Prog.exec_bind, hexec]
  simp only [assign_assign, List.nil_append]

/-- A whole file, whose length may not have been asked for. -/
theorem copyFile_written (hfault : fault n = none) (hcreate : fault (n + 1) = none)
    (h : Fits store (location, .file contents))
    (hwrite : ∀ i < contents.length, fault (n + 2 + i) = none) :
    (copyNode error (location, .file contents)).exec fault n store =
        ((match fault (n + 2 + contents.length) with
          | some e => .error e
          | none => .ok ()), assign store location (.file contents)) ∧
      (fault (n + 2 + contents.length) = none →
        (copyNode error (location, .file contents)).ran fault n store = contents.length + 3) := by
  obtain ⟨hexec, hran⟩ := @exec_copyFile_begun _ _ _ error _ _ _ hfault hcreate h
  obtain ⟨hbytes, hcount⟩ := writeBytes_through
    (assign_self (m := store) (k := location) (v := DirNode.file [])) hwrite
  rw [assign_assign, List.nil_append] at hbytes
  refine ⟨?_, ?_⟩
  · rw [hexec, Prog.exec_bind, hbytes, hcount]
    dsimp only
    cases hlength : fault (n + 2 + contents.length) with
    | some e => rw [Prog.exec_query_bind_stopped hlength]
    | none =>
      rw [Prog.exec_query_bind hlength]
      rfl
  · intro hlength
    rw [hran, Prog.ran_bind_of_ok hbytes, hcount, Prog.ran_query_bind hlength]
    rfl

/-! ## A whole copy -/

/-- No statement of the copy of a node fails. -/
def NodeThrough (fault : Fault ε) (n : Nat) (store : DirStore) (node : Location × DirNode) : Prop :=
  (∀ i < nodeCost node.2, fault (n + i) = none) ∧ Fits store node

/-- No statement of the copy fails. -/
def RunsThrough (fault : Fault ε) (n : Nat) (store : DirStore)
    (nodes : List (Location × DirNode)) : Prop :=
  (∀ i < copyCost nodes, fault (n + i) = none) ∧ ∀ node ∈ nodes, Fits store node

/-- Where the copy ends, every node that it has not written to its end is there: it was there
before.  A file that is being written is not. -/
def EndsWhole (fault : Fault ε) : Nat → DirStore → List (Location × DirNode) → Prop
  | _, _, [] => True
  | n, store, (location, .directory) :: rest =>
    match fault n with
    | some _ => Holds store ((location, .directory) :: rest)
    | none => Fits store (location, .directory) ∧ EndsWhole fault (n + 1) store rest
  | n, store, (location, .file contents) :: rest =>
    match fault n, fault (n + 1) with
    | none, none =>
      Fits store (location, .file contents) ∧
        (∀ i < contents.length, fault (n + 2 + i) = none) ∧
        match fault (n + 2 + contents.length) with
        | some _ => Holds store rest
        | none => EndsWhole fault (n + (contents.length + 3)) store rest
    | _, _ => Holds store ((location, .file contents) :: rest)

theorem fits_congr {store' : DirStore} (h : store' node.1 = store node.1) :
    Fits store' node ↔ Fits store node := by
  obtain ⟨location, kind⟩ := node
  dsimp only at h
  cases kind with
  | directory => simp only [Fits, h]
  | file contents => simp only [Fits, h]

theorem endsWhole_congr {store' : DirStore} (h : ∀ node ∈ nodes, store' node.1 = store node.1) :
    EndsWhole fault n store' nodes ↔ EndsWhole fault n store nodes := by
  induction nodes generalizing n with
  | nil => rfl
  | cons node rest ih =>
    have hrest : ∀ node ∈ rest, store' node.1 = store node.1 :=
      fun node hnode => h node (List.mem_cons_of_mem _ hnode)
    have hfits := fits_congr (h node List.mem_cons_self)
    have hholds := holds_congr h
    obtain ⟨location, _ | contents⟩ := node
    · unfold EndsWhole
      split
      · exact hholds
      · rw [hfits, ih hrest]
    · unfold EndsWhole
      split
      · rw [hfits]
        split
        · rw [holds_congr hrest]
        · rw [ih hrest]
      · exact hholds

theorem nodeThrough_directory_iff :
    NodeThrough fault n store (location, .directory) ↔
      fault n = none ∧ Fits store (location, .directory) := by
  constructor
  · intro h
    exact ⟨h.1 0 Nat.one_pos, h.2⟩
  · rintro ⟨hfault, hfits⟩
    refine ⟨?_, hfits⟩
    intro i hi
    have hzero : i = 0 := Nat.lt_one_iff.mp hi
    rw [hzero]
    exact hfault

theorem nodeThrough_file_iff :
    NodeThrough fault n store (location, .file contents) ↔
      fault n = none ∧ fault (n + 1) = none ∧ Fits store (location, .file contents) ∧
        (∀ i < contents.length, fault (n + 2 + i) = none) ∧
        fault (n + 2 + contents.length) = none := by
  have hcost : nodeCost (.file contents) = contents.length + 3 := rfl
  constructor
  · rintro ⟨h, hfits⟩
    dsimp only at h
    rw [hcost] at h
    refine ⟨h 0 (by omega), h 1 (by omega), hfits, ?_, ?_⟩
    · intro i hi
      rw [Nat.add_assoc]
      exact h (2 + i) (by omega)
    · rw [Nat.add_assoc]
      exact h (2 + contents.length) (by omega)
  · rintro ⟨hfault, hcreate, hfits, hbytes, hlength⟩
    refine ⟨?_, hfits⟩
    intro i hi
    dsimp only at hi
    rw [hcost] at hi
    rcases i with _ | _ | j
    · exact hfault
    · exact hcreate
    · have hnumber : n + (j + 1 + 1) = n + 2 + j := by omega
      rw [hnumber]
      rcases Nat.lt_or_ge j contents.length with hj | hj
      · exact hbytes j hj
      · have hlast : j = contents.length := by omega
        rw [hlast]
        exact hlength

theorem copyNode_through (h : NodeThrough fault n store node) :
    (copyNode error node).exec fault n store = (.ok (), assign store node.1 node.2) ∧
      (copyNode error node).ran fault n store = nodeCost node.2 := by
  obtain ⟨location, kind⟩ := node
  cases kind with
  | directory =>
    obtain ⟨hfault, hfits⟩ := nodeThrough_directory_iff.mp h
    exact copyDirectory_through hfault hfits
  | file contents =>
    obtain ⟨hfault, hcreate, hfits, hbytes, hlength⟩ := nodeThrough_file_iff.mp h
    obtain ⟨hexec, hran⟩ := @copyFile_written _ _ _ error _ _ _ hfault hcreate hfits hbytes
    refine ⟨?_, hran hlength⟩
    rw [hexec, hlength]

/-- Behind a node that is copied the rest decides. -/
theorem endsWhole_of_through (h : NodeThrough fault n store node) :
    EndsWhole fault n store (node :: nodes) ↔
      EndsWhole fault (n + nodeCost node.2) store nodes := by
  obtain ⟨location, kind⟩ := node
  cases kind with
  | directory =>
    obtain ⟨hfault, hfits⟩ := nodeThrough_directory_iff.mp h
    simp only [EndsWhole, hfault, hfits, true_and, nodeCost]
  | file contents =>
    obtain ⟨hfault, hcreate, hfits, hbytes, hlength⟩ := nodeThrough_file_iff.mp h
    simp only [EndsWhole, hfault, hcreate, hfits, hlength, true_and, nodeCost]
    exact and_iff_right hbytes

theorem not_fits_directory (h : ¬Fits store (location, .directory)) :
    ∃ contents, store location = some (.file contents) := by
  by_contra hnone
  apply h
  intro contents hat
  exact hnone ⟨contents, hat⟩

theorem copyDirectory_refused (hfault : fault n = none) (h : ¬Fits store (location, .directory)) :
    (copyNode error (location, .directory)).exec fault n store =
      (.error (error location), store) := by
  obtain ⟨contents, hat⟩ := not_fits_directory h
  simp [copyNode, Prog.attempt, Prog.exec, hfault, makeDirectory?, hat]

theorem copyFile_refused (hfault : fault n = none) (hcreate : fault (n + 1) = none)
    (h : store location = some .directory) :
    (copyNode error (location, .file contents)).exec fault n store =
      (.error (error location), store) := by
  have hrefuses : createFile? location store = none := by
    unfold createFile?
    rw [h]
  unfold copyNode copyFile
  simp only [Prog.bind_assoc]
  rw [Prog.exec_write_bind hfault, id_eq, Prog.exec_attempt_bind_refused hcreate hrefuses]

theorem copyFile_not_created {e : ε} (hfault : fault n = none) (hcreate : fault (n + 1) = some e) :
    (copyNode error (location, .file contents)).exec fault n store = (.error e, store) := by
  unfold copyNode copyFile
  simp only [Prog.bind_assoc]
  rw [Prog.exec_write_bind hfault, id_eq, Prog.exec_attempt_bind_stopped hcreate]

/-! ## Where a copy stops -/

section Stopping

variable (error)

theorem copyDirectory_stopped (h : ¬NodeThrough fault n store (location, .directory)) :
    ∃ e t, (copyNode error (location, .directory)).exec fault n store = (.error e, t) ∧
      (Holds t ((location, .directory) :: nodes) ↔
        EndsWhole fault n store ((location, .directory) :: nodes)) := by
  cases hfault : fault n with
  | some e =>
    refine ⟨e, store, copyNode_not_begun hfault, ?_⟩
    simp only [EndsWhole, hfault]
  | none =>
    have hunfit : ¬Fits store (location, .directory) :=
      fun hfits => h (nodeThrough_directory_iff.mpr ⟨hfault, hfits⟩)
    obtain ⟨contents, hat⟩ := not_fits_directory hunfit
    refine ⟨error location, store, copyDirectory_refused hfault hunfit, ?_⟩
    simp only [EndsWhole, hfault, hunfit, false_and, iff_false, holds_cons, hat]
    simp

/-- A file that is cut short is none of the nodes. -/
theorem copyFile_stopped_within {i : Nat} (hfault : fault n = none)
    (hcreate : fault (n + 1) = none) (hfits : Fits store (location, .file contents))
    (hi : i < contents.length) (hstop : fault (n + 2 + i) ≠ none) :
    ∃ e t, (copyNode error (location, .file contents)).exec fault n store = (.error e, t) ∧
      (Holds t ((location, .file contents) :: nodes) ↔
        EndsWhole fault n store ((location, .file contents) :: nodes)) := by
  obtain ⟨e, k, hk, hexec⟩ := @copyFile_cut _ _ _ error _ _ _ _ hfault hcreate hfits hi hstop
  refine ⟨e, _, hexec, ?_⟩
  have hcut : contents.take k ≠ contents := by
    intro heq
    have hlength := congrArg List.length heq
    rw [List.length_take] at hlength
    omega
  have hnever : ¬∀ i < contents.length, fault (n + 2 + i) = none := fun hall => hstop (hall i hi)
  simp only [EndsWhole, hfault, hcreate, holds_cons, assign_self, hnever, false_and, and_false,
    iff_false]
  simp [hcut]

/-- Behind the last byte of a file the file is there. -/
theorem copyFile_stopped_behind {e : ε} (hfault : fault n = none) (hcreate : fault (n + 1) = none)
    (hfits : Fits store (location, .file contents))
    (hbytes : ∀ i < contents.length, fault (n + 2 + i) = none)
    (hlength : fault (n + 2 + contents.length) = some e) (hnot : location ∉ nodes.map Prod.fst) :
    ∃ e t, (copyNode error (location, .file contents)).exec fault n store = (.error e, t) ∧
      (Holds t ((location, .file contents) :: nodes) ↔
        EndsWhole fault n store ((location, .file contents) :: nodes)) := by
  have hwritten := (@copyFile_written _ _ _ error _ _ _ hfault hcreate hfits hbytes).1
  rw [hlength] at hwritten
  refine ⟨e, _, hwritten, ?_⟩
  simp only [EndsWhole, hfault, hcreate, hlength, hfits, true_and, holds_cons, assign_self]
  rw [and_iff_right hbytes]
  apply holds_congr
  intro other hother
  apply assign_of_ne
  rintro rfl
  exact hnot (List.mem_map_of_mem hother)

theorem copyFile_stopped (h : ¬NodeThrough fault n store (location, .file contents))
    (hnot : location ∉ nodes.map Prod.fst) :
    ∃ e t, (copyNode error (location, .file contents)).exec fault n store = (.error e, t) ∧
      (Holds t ((location, .file contents) :: nodes) ↔
        EndsWhole fault n store ((location, .file contents) :: nodes)) := by
  cases hfault : fault n with
  | some e =>
    refine ⟨e, store, copyNode_not_begun hfault, ?_⟩
    simp only [EndsWhole, hfault]
  | none =>
    cases hcreate : fault (n + 1) with
    | some e =>
      refine ⟨e, store, copyFile_not_created hfault hcreate, ?_⟩
      simp only [EndsWhole, hfault, hcreate]
    | none =>
      by_cases hat : store location = some .directory
      · refine ⟨_, store, copyFile_refused hfault hcreate hat, ?_⟩
        have hunfit : ¬Fits store (location, .file contents) := fun hfits => hfits hat
        simp only [EndsWhole, hfault, hcreate, hunfit, false_and, iff_false, holds_cons, hat]
        simp
      · by_cases hbytes : ∀ i < contents.length, fault (n + 2 + i) = none
        · cases hlength : fault (n + 2 + contents.length) with
          | none =>
            have hthrough := nodeThrough_file_iff.mpr
              ⟨hfault, hcreate, hat, hbytes, hlength⟩
            exact absurd hthrough h
          | some e => exact copyFile_stopped_behind error hfault hcreate hat hbytes hlength hnot
        · push Not at hbytes
          obtain ⟨i, hi, hstop⟩ := hbytes
          exact copyFile_stopped_within error hfault hcreate hat hi hstop

/-- What a copy leaves that stops at its first node. -/
theorem copyNode_stopped (h : ¬NodeThrough fault n store node)
    (hnot : node.1 ∉ nodes.map Prod.fst) :
    ∃ e t, (copyNode error node).exec fault n store = (.error e, t) ∧
      (Holds t (node :: nodes) ↔ EndsWhole fault n store (node :: nodes)) := by
  obtain ⟨location, kind⟩ := node
  cases kind with
  | directory => exact copyDirectory_stopped error h
  | file contents => exact copyFile_stopped error h hnot

end Stopping

/-! ## A whole copy -/

theorem runsThrough_cons :
    RunsThrough fault n store (node :: nodes) ↔
      NodeThrough fault n store node ∧ RunsThrough fault (n + nodeCost node.2) store nodes := by
  have hcost : copyCost (node :: nodes) = nodeCost node.2 + copyCost nodes := by
    unfold copyCost
    rw [List.map_cons, List.sum_cons]
  unfold RunsThrough NodeThrough
  rw [hcost, List.forall_mem_cons]
  constructor
  · rintro ⟨hfault, hfits, hrest⟩
    refine ⟨⟨fun i hi => hfault i (by omega), hfits⟩, ?_, hrest⟩
    intro i hi
    rw [Nat.add_assoc]
    exact hfault _ (by omega)
  · rintro ⟨⟨hnode, hfits⟩, hfault, hrest⟩
    refine ⟨?_, hfits, hrest⟩
    intro i hi
    rcases Nat.lt_or_ge i (nodeCost node.2) with hlt | hge
    · exact hnode i hlt
    · obtain ⟨j, rfl⟩ := Nat.exists_eq_add_of_le hge
      rw [← Nat.add_assoc]
      exact hfault j (by omega)

theorem runsThrough_congr {store' : DirStore} (h : ∀ node ∈ nodes, store' node.1 = store node.1) :
    RunsThrough fault n store' nodes ↔ RunsThrough fault n store nodes := by
  unfold RunsThrough
  apply and_congr_right
  intro _
  constructor
  · intro hfits node hnode
    exact (fits_congr (h node hnode)).mp (hfits node hnode)
  · intro hfits node hnode
    exact (fits_congr (h node hnode)).mpr (hfits node hnode)

/-- The nodes behind the first one do not see it. -/
theorem assign_unseen (hnot : node.1 ∉ nodes.map Prod.fst) :
    ∀ other ∈ nodes, assign store node.1 node.2 other.1 = store other.1 := by
  intro other hother
  apply assign_of_ne
  intro heq
  rw [← heq] at hnot
  exact hnot (List.mem_map_of_mem hother)

theorem copyNodes_through (hdistinct : (nodes.map Prod.fst).Nodup)
    (h : RunsThrough fault n store nodes) :
    (copyNodes error nodes).exec fault n store = (.ok (), overlay store nodes) ∧
      (copyNodes error nodes).ran fault n store = copyCost nodes := by
  induction nodes generalizing n store with
  | nil => exact ⟨rfl, rfl⟩
  | cons node rest ih =>
    rw [List.map_cons, List.nodup_cons] at hdistinct
    obtain ⟨hnode, hrest⟩ := runsThrough_cons.mp h
    obtain ⟨hexec, hran⟩ := @copyNode_through _ _ _ error _ _ hnode
    rw [← runsThrough_congr (assign_unseen hdistinct.1)] at hrest
    obtain ⟨hexecRest, hranRest⟩ := ih hdistinct.2 hrest
    rw [copyNodes]
    refine ⟨?_, ?_⟩
    · rw [Prog.exec_bind, hexec, hran]
      exact hexecRest
    · rw [Prog.ran_bind_of_ok hexec, hran, hranRest]
      rfl

/-! ## What is not copied -/

section Frame

variable {other : Location} {made : DirStore}

theorem makeDirectory?_frame (hother : other ≠ location)
    (h : makeDirectory? location store = some made) : made other = store other := by
  unfold makeDirectory? at h
  split at h
  · cases h
    exact assign_of_ne hother
  · cases h
    rfl
  · cases h

theorem createFile?_frame (hother : other ≠ location)
    (h : createFile? location store = some made) : made other = store other := by
  unfold createFile? at h
  split at h
  · cases h
  · cases h
    exact assign_of_ne hother

theorem appendByte_frame {byte : UInt8} (hother : other ≠ location) :
    appendByte location byte store other = store other := by
  unfold appendByte
  cases store location with
  | none => rfl
  | some node =>
    cases node with
    | directory => rfl
    | file contents => exact assign_of_ne hother

/-- The location is left as it is. -/
def KeptAt (other : Location) (kind : Option DirNode) (store : DirStore) : Prop :=
  store other = kind

variable {kind : Option DirNode}

theorem writeBytes_ensures (hother : other ≠ location) (h : KeptAt other kind store) :
    (writeBytes location contents : Prog DirStore ε Unit).Ensures (KeptAt other kind)
      (fun _ _ => True) store := by
  induction contents generalizing store with
  | nil => trivial
  | cons byte rest ih =>
    have hkept : KeptAt other kind (appendByte location byte store) :=
      (appendByte_frame hother).trans h
    exact ⟨hkept, ih hkept⟩

theorem copyNode_ensures (hother : other ≠ node.1) (h : KeptAt other kind store) :
    (copyNode error node).Ensures (KeptAt other kind) (fun _ _ => True) store := by
  obtain ⟨location, _ | contents⟩ := node
  · apply Prog.ensures_attempt h
    intro t hmade
    exact ⟨(makeDirectory?_frame hother hmade).trans h, trivial⟩
  · unfold copyNode copyFile
    simp only [Prog.bind_assoc]
    apply Prog.ensures_write_bind (I := KeptAt other kind) h
    apply Prog.ensures_attempt_bind h
    intro t hmade
    have hkept : KeptAt other kind t := (createFile?_frame hother hmade).trans h
    refine ⟨hkept, ?_⟩
    apply Prog.ensures_bind hkept (writeBytes_ensures hother hkept)
    intro _ u hu _
    exact ⟨hu, trivial⟩

theorem copyNodes_ensures (hother : other ∉ nodes.map Prod.fst) (h : KeptAt other kind store) :
    (copyNodes error nodes).Ensures (KeptAt other kind) (fun _ _ => True) store := by
  induction nodes generalizing store with
  | nil => trivial
  | cons node rest ih =>
    rw [List.map_cons, List.mem_cons, not_or] at hother
    rw [copyNodes]
    apply Prog.ensures_bind h (copyNode_ensures hother.1 h)
    intro _ t ht _
    exact ih hother.2 ht

theorem copyNodes_frame (hother : other ∉ nodes.map Prod.fst) :
    ((copyNodes error nodes).exec fault n store).2 other = store other :=
  Prog.exec_ensures (I := KeptAt other (store other)) (Q := fun _ _ => True) fault n _ store
    rfl (copyNodes_ensures hother rfl)

end Frame

/-- Wherever a copy ends, the nodes are all there in exactly these cases. -/
theorem holds_copyNodes_iff (hdistinct : (nodes.map Prod.fst).Nodup) :
    Holds ((copyNodes error nodes).exec fault n store).2 nodes ↔ EndsWhole fault n store nodes := by
  induction nodes generalizing n store with
  | nil => exact ⟨fun _ => trivial, fun _ node hnode => absurd hnode List.not_mem_nil⟩
  | cons node rest ih =>
    rw [List.map_cons, List.nodup_cons] at hdistinct
    rw [copyNodes]
    by_cases hnode : NodeThrough fault n store node
    · obtain ⟨hexec, hran⟩ := @copyNode_through _ _ _ error _ _ hnode
      rw [Prog.exec_bind, hexec, hran]
      dsimp only
      rw [holds_cons, copyNodes_frame hdistinct.1, assign_self, ih hdistinct.2,
        endsWhole_congr (assign_unseen hdistinct.1), endsWhole_of_through hnode]
      exact and_iff_right rfl
    · obtain ⟨e, t, hexec, hiff⟩ := copyNode_stopped error hnode hdistinct.1
      rw [Prog.exec_bind, hexec]
      exact hiff

/-- A copy that does not run through returns an error. -/
theorem copyNodes_error (hdistinct : (nodes.map Prod.fst).Nodup)
    (h : ¬RunsThrough fault n store nodes) :
    ∃ e, ((copyNodes error nodes).exec fault n store).1 = .error e := by
  induction nodes generalizing n store with
  | nil =>
    refine absurd ⟨?_, ?_⟩ h
    · exact fun i hi => absurd hi (Nat.not_lt_zero i)
    · exact fun node hnode => absurd hnode List.not_mem_nil
  | cons node rest ih =>
    rw [List.map_cons, List.nodup_cons] at hdistinct
    rw [copyNodes]
    by_cases hnode : NodeThrough fault n store node
    · obtain ⟨hexec, hran⟩ := @copyNode_through _ _ _ error _ _ hnode
      rw [Prog.exec_bind, hexec, hran]
      apply ih hdistinct.2
      rw [runsThrough_congr (assign_unseen hdistinct.1)]
      exact fun hrest => h (runsThrough_cons.mpr ⟨hnode, hrest⟩)
    · obtain ⟨e, t, hexec, -⟩ := copyNode_stopped error hnode hdistinct.1
      rw [Prog.exec_bind, hexec]
      exact ⟨e, rfl⟩

end Copying

end DevRelay.Lib
