import DevRelay.Lib.FileTree

/-!
# Making directories again

A program that makes directories can stop in front of any of them.  The tree it leaves has some
of the directories, paths lead in it where they led before, and the program makes the rest of
them when it is run again.
-/

namespace DevRelay.Lib.FileTree

variable {tree grown : FileTree} {here location : Location} {ε : Type}

/-- The same tree but for directories where nothing was. -/
structure Grown (tree grown : FileTree) : Prop where
  fold : grown.fold = tree.fold
  node : ∀ location, grown.node location = tree.node location ∨
    (tree.node location = none ∧ grown.node location = some .directory)

theorem Grown.refl (tree : FileTree) : Grown tree tree := ⟨rfl, fun _ => Or.inl rfl⟩

theorem Grown.node_of_some (h : Grown tree grown) {node : Node}
    (hnode : tree.node location = some node) : grown.node location = some node := by
  rcases h.node location with hsame | ⟨hnone, -⟩
  · rw [hsame, hnode]
  · rw [hnode] at hnone
    cases hnone

theorem Grown.trans {last : FileTree} (h : Grown tree grown) (hlast : Grown grown last) :
    Grown tree last where
  fold := hlast.fold.trans h.fold
  node location := by
    rcases h.node location with hsame | ⟨hnone, hdirectory⟩
    · rw [← hsame]
      exact hlast.node location
    · exact Or.inr ⟨hnone, hlast.node_of_some hdirectory⟩

theorem Grown.makeDir {name : String} (h : makeDir? here name tree = some grown) :
    Grown tree grown := by
  unfold makeDir? at h
  split at h
  · rename_i hnone
    cases h
    refine ⟨rfl, fun location => ?_⟩
    by_cases hplace : location = here ++ [tree.fold name]
    · rw [hplace, node_put_self]
      exact Or.inr ⟨hnone, rfl⟩
    · exact Or.inl (node_put_of_ne hplace)
  · split at h
    · cases h
      exact Grown.refl tree
    · cases h

/-- A path still leads where it led. -/
theorem Grown.walk (h : Grown tree grown)
    {follow follow' : Location → List Component → Option Location}
    (hfollow : ∀ here path location, follow here path = some location →
      follow' here path = some location) (path : List Component)
    (hwalk : tree.walk follow here path = some location) :
    grown.walk follow' here path = some location := by
  induction path generalizing here with
  | nil => exact hwalk
  | cons first rest ih =>
    cases first with
    | rootDir => exact ih hwalk
    | curDir => exact ih hwalk
    | parentDir => exact ih hwalk
    | normal name =>
      rw [FileTree.walk] at hwalk ⊢
      rw [h.fold]
      cases hnode : tree.node (here ++ [tree.fold name]) with
      | none =>
        rw [hnode] at hwalk
        have hrest : rest = [] := by
          by_contra hne
          simp [hne] at hwalk
        subst hrest
        rcases h.node (here ++ [tree.fold name]) with hsame | ⟨-, hdirectory⟩
        · rw [hsame, hnode]
          exact hwalk
        · rw [hdirectory]
          exact hwalk
      | some node =>
        rw [hnode] at hwalk
        rw [h.node_of_some hnode]
        cases node with
        | directory => exact ih hwalk
        | file contents mode => exact hwalk
        | symlink target => exact hfollow _ _ _ hwalk

theorem Grown.resolve (h : Grown tree grown) (links : Nat) (path : List Component)
    (hresolve : tree.resolve links here path = some location) :
    grown.resolve links here path = some location := by
  induction links generalizing here path location with
  | zero => exact h.walk (fun _ _ _ hnone => by cases hnone) path hresolve
  | succ links ih =>
    refine h.walk ?_ path hresolve
    intro place steps target htarget
    exact ih steps htarget

theorem Grown.locate (h : Grown tree grown) {path : List Component}
    (hlocate : tree.locate here path = some location) :
    grown.locate here path = some location := h.resolve maxLinks path hlocate

/-- A directory that was made leads to a directory. -/
theorem exists_of_makeDir {name : String} {made : FileTree}
    (h : makeDir? here name tree = some made) :
    ∃ place, made.locate here [.normal name] = some place ∧ made.node place = some .directory := by
  unfold makeDir? at h
  split at h
  · cases h
    refine ⟨here ++ [tree.fold name], ?_, node_put_self _ _ _⟩
    unfold FileTree.locate maxLinks FileTree.resolve
    rw [FileTree.walk, fold_put, node_put_self]
    rfl
  · split at h
    · rename_i hdirectory
      cases h
      exact Option.bind_eq_some_iff.mp hdirectory
    · cases h

/-- In a grown tree it is there, and nothing is done. -/
theorem Grown.makeDir_again {name : String} {made : FileTree}
    (h : makeDir? here name tree = some made) (hgrown : Grown made grown) :
    makeDir? here name grown = some grown ∧
      grown.locate here [.normal name] = made.locate here [.normal name] := by
  obtain ⟨place, hplace, hnode⟩ := exists_of_makeDir h
  have hlocate := hgrown.locate hplace
  have hthere : ∃ node, grown.node (here ++ [grown.fold name]) = some node := by
    cases hnone : grown.node (here ++ [grown.fold name]) with
    | some node => exact ⟨node, rfl⟩
    | none =>
      have hsame : place = here ++ [grown.fold name] := by
        unfold FileTree.locate maxLinks FileTree.resolve at hlocate
        rw [FileTree.walk, hnone] at hlocate
        exact (Option.some_inj.mp hlocate).symm
      have hdirectory := hgrown.node_of_some hnode
      rw [hsame, hnone] at hdirectory
      cases hdirectory
  obtain ⟨node, hnode'⟩ := hthere
  refine ⟨?_, hlocate.trans hplace.symm⟩
  unfold makeDir?
  rw [hnode', hlocate, Option.bind_some, hgrown.node_of_some hnode]

/-! ## A run that stopped -/

variable {error : ε} {fault : Fault ε}

theorem grown_createDirAll (path : List Component) (n : Nat) :
    Grown tree ((createDirAll error here path).exec fault n tree).2 := by
  have hkept : ∀ here name middle made, Grown tree middle → makeDir? here name middle = some made →
      Grown tree made := fun _ _ _ _ hmiddle hmade => hmiddle.trans (Grown.makeDir hmade)
  exact Prog.exec_ensures fault n _ tree (Grown.refl tree)
    (createDirAll_ensures hkept path (Grown.refl tree))

/-- Run again, it ends as if it had not been run before. -/
theorem createDirAll_resume (path : List Component) (n : Nat) :
    (createDirAll error here path).run ((createDirAll error here path).exec fault n tree).2 =
      (createDirAll error here path).run tree := by
  induction path generalizing here tree n with
  | nil => rfl
  | cons first rest ih =>
    cases first with
    | rootDir => exact ih n
    | curDir => exact ih n
    | parentDir => exact ih n
    | normal name =>
      rw [createDirAll]
      cases hfault : fault n with
      | some e => rw [Prog.exec_attempt_bind_stopped hfault]
      | none =>
        cases hmake : makeDir? here name tree with
        | none => rw [Prog.exec_attempt_bind_refused hfault hmake]
        | some made =>
          rw [Prog.exec_attempt_bind hfault hmake, Prog.run_attempt_bind hmake]
          have hquery : ∀ grown, Grown made grown →
              (Prog.attempt (makeDir? here name) error >>= fun _ => do
                let next ← Prog.query fun tree => tree.locate here [.normal name]
                createDirAll error (next.getD here) rest : Prog FileTree ε Unit).run
                  grown =
              (createDirAll error ((made.locate here [.normal name]).getD here) rest).run
                grown := by
            intro grown hgrown
            obtain ⟨hagain, hlocate⟩ := hgrown.makeDir_again hmake
            rw [Prog.run_attempt_bind hagain, Prog.run_query_bind, hlocate]
          rw [Prog.run_query_bind]
          cases hnext : fault (n + 1) with
          | some e =>
            rw [Prog.exec_query_bind_stopped hnext, hquery made (Grown.refl made)]
          | none =>
            rw [Prog.exec_query_bind hnext, hquery _ (grown_createDirAll rest _), ih]

end DevRelay.Lib.FileTree
