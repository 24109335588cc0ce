import DevRelay.Snapshot.ChildLinks
import DevRelay.Snapshot.SubmoduleConfigs

/-!
# The inspection of submodules

`inspect_submodules` follows the declarations from checkout to checkout, no deeper than a
limit and not again into a checkout it comes from.  It ends on every world, and where
every declaration is seen it reports every submodule within the depth limit, so that a
checkpoint stores a child snapshot for each dirty one.
-/

namespace DevRelay.Snapshot

open DevRelay.Lib DevRelay.Core DevRelay.Storage DevRelay.Retention

structure InspectedSubmodule where
  name : String
  path : String
  url : Option String
  recordedCommit : Option String
  worktreeCommit : Option String
  status : SubmoduleStatus
  deriving DecidableEq, Repr

structure SubmoduleReport where
  submodules : List InspectedSubmodule := []
  maxDepthExceeded : List String := []
  cycles : List (List String) := []
  deriving DecidableEq, Repr

/-- The directories of a checkout, as the inspection reads them. -/
structure SubmoduleWorld where
  /-- the variables of the file `.gitmodules`, when it exists -/
  gitmodules : String → Option (List ConfigRecord)
  /-- `Path::join` -/
  join : String → String → String
  /-- `canonical_path` -/
  canonical : String → String
  /-- the output of `git ls-files -s -- path` -/
  lsFilesStage : String → String → Option (List Char)
  /-- the output of `git rev-parse HEAD` -/
  revParseHead : String → Option String
  /-- the output of `git status --porcelain` -/
  statusPorcelain : String → Except DevRelayError (List Char)

/-! ## One submodule -/

def recordedSubmoduleCommit (raw : Option (List Char)) : Option String :=
  match raw with
  | none => none
  | some raw =>
    match splitn '\t' 2 raw with
    | [metadata, _] =>
      let fields := splitWhitespace metadata
      let mode := fields.headD []
      let oid := (fields.drop 1).headD []
      if mode = "160000".toList && !oid.isEmpty then some (String.ofList oid) else none
    | _ => none

def submoduleStatus (recorded worktree : Option String) (dirty : Bool) : SubmoduleStatus :=
  match recorded, worktree, dirty with
  | _, none, _ => .missing
  | _, some _, true => .dirty
  | some recorded, some worktree, false =>
    if recorded ≠ worktree then .headMismatch else .clean
  | none, some _, false => .clean

namespace SubmoduleWorld

variable (debug : String → String) (world : SubmoduleWorld)

def inspectSubmodule (dir name path : String) (url : Option String) :
    Except DevRelayError InspectedSubmodule := do
  let recordedCommit := recordedSubmoduleCommit (world.lsFilesStage dir path)
  let submodule := world.join dir path
  let worktreeCommit := world.revParseHead submodule
  let dirty ← match worktreeCommit with
    | none => .ok false
    | some _ => (world.statusPorcelain submodule).map fun status => !status.all isSpace
  return {
    name, path, url, recordedCommit, worktreeCommit
    status := submoduleStatus recordedCommit worktreeCommit dirty }

/-! ## The recursion -/

def displayPrefix (front : String) : String := if front.isEmpty then "." else front

def joinRepoPath (front path : String) : String :=
  if front.isEmpty then path else front ++ "/" ++ path

/-- `submodule_configs` in a directory. -/
def configs (dir : String) : Except DevRelayError (SortedMap String SubmoduleConfig) :=
  submoduleConfigs debug ((world.gitmodules dir).bind configOutput)

/-- The loop over the declared submodules of a directory; `descend` inspects a nested
checkout, and `none` is its lack of fuel. -/
def inspectConfigs (maxDepth : Nat)
    (descend : String → String → SubmoduleReport → Option (Except DevRelayError SubmoduleReport))
    (dir front : String) (depth : Nat) :
    List (String × SubmoduleConfig) → SubmoduleReport →
      Option (Except DevRelayError SubmoduleReport)
  | [], report => some (.ok report)
  | (name, config) :: rest, report =>
    match config.path with
    | none => inspectConfigs maxDepth descend dir front depth rest report
    | some localPath =>
      match world.inspectSubmodule dir name localPath config.url with
      | .error e => some (.error e)
      | .ok state =>
        let displayPath := joinRepoPath front localPath
        let submodulePath := world.join dir localPath
        let report := { report with
          submodules := report.submodules ++ [{ state with path := displayPath }] }
        if state.worktreeCommit.isSome && (world.gitmodules submodulePath).isSome then
          if maxDepth ≤ depth then
            inspectConfigs maxDepth descend dir front depth rest { report with
              maxDepthExceeded := report.maxDepthExceeded ++ [displayPath] }
          else
            match descend submodulePath displayPath report with
            | some (.ok report) =>
              inspectConfigs maxDepth descend dir front depth rest report
            | stopped => stopped
        else inspectConfigs maxDepth descend dir front depth rest report

/-- `none` when the fuel is used up. -/
def inspectSubmodulesRecursive (maxDepth : Nat) :
    Nat → (dir front : String) → (depth : Nat) → (stack : List (String × String)) →
      SubmoduleReport → Option (Except DevRelayError SubmoduleReport)
  | 0, _, _, _, _, _ => none
  | fuel + 1, dir, front, depth, stack, report =>
    let canonical := world.canonical dir
    match stack.findIdx? fun entry => entry.1 = canonical with
    | some index =>
      let cycle := (stack.drop index).map Prod.snd ++ [displayPrefix front]
      some (.ok { report with cycles := report.cycles ++ [cycle] })
    | none =>
      match world.configs debug dir with
      | .error e => some (.error e)
      | .ok configs =>
        world.inspectConfigs maxDepth
          (fun dir' front' => inspectSubmodulesRecursive maxDepth fuel dir' front'
            (depth + 1) (stack ++ [(canonical, displayPrefix front)]))
          dir front depth configs.entries report

/-- `inspect_submodules_with_depth`.  The fuel is enough, see `exists_inspection`. -/
def inspectSubmodulesWithDepth (dir : String) (maxDepth : Nat) :
    Except DevRelayError SubmoduleReport := do
  let report ← (world.inspectSubmodulesRecursive debug maxDepth (maxDepth + 1) dir "" 0 [] {}).getD
    (.error (.config "recursion"))
  return {
    submodules := report.submodules.insertionSort fun left right => left.path ≤ right.path
    maxDepthExceeded := report.maxDepthExceeded.insertionSort fun left right => left ≤ right
    cycles := report.cycles.insertionSort fun left right => left ≤ right }

/-! ## The recursion ends -/

section Ends

variable {debug world}
variable {maxDepth : Nat} {dir front : String} {depth : Nat}

variable (world maxDepth dir front depth) in
theorem inspectConfigs_total
    (descend : String → String → SubmoduleReport → Except DevRelayError SubmoduleReport)
    (entries : List (String × SubmoduleConfig)) (report : SubmoduleReport) :
    ∃ result, world.inspectConfigs maxDepth (fun dir front report =>
      some (descend dir front report)) dir front depth entries report = some result := by
  induction entries generalizing report with
  | nil => exact ⟨_, rfl⟩
  | cons entry rest ih =>
    rw [inspectConfigs]
    split
    · exact ih report
    · split
      · exact ⟨_, rfl⟩
      · dsimp only
        split_ifs
        · exact ih _
        · split
          · exact ih _
          · exact ⟨_, rfl⟩
        · exact ih _

/-- At the depth limit the loop descends no further. -/
theorem inspectConfigs_of_deep (h : maxDepth ≤ depth)
    (descend descend' : String → String → SubmoduleReport →
      Option (Except DevRelayError SubmoduleReport))
    (entries : List (String × SubmoduleConfig)) (report : SubmoduleReport) :
    world.inspectConfigs maxDepth descend dir front depth entries report =
      world.inspectConfigs maxDepth descend' dir front depth entries report := by
  induction entries generalizing report with
  | nil => rfl
  | cons entry rest ih =>
    rw [inspectConfigs, inspectConfigs]
    split
    · exact ih report
    · split
      · rfl
      · dsimp only
        rw [if_pos h, if_pos h, ih, ih]

/-- A checkout is inspected with one more unit of fuel than its loop takes. -/
theorem inspection_of_loop {stack : List (String × String)} {levels : Nat}
    (hloop : ∀ entries report, ∃ result, ∀ fuel, levels ≤ fuel →
      world.inspectConfigs maxDepth (fun dir' front' =>
        world.inspectSubmodulesRecursive debug maxDepth fuel dir' front' (depth + 1)
          (stack ++ [(world.canonical dir, displayPrefix front)]))
        dir front depth entries report = some result) (report : SubmoduleReport) :
    ∃ result, ∀ fuel, levels < fuel → world.inspectSubmodulesRecursive debug maxDepth fuel dir
      front depth stack report = some result := by
  have hunfold : ∀ fuel, levels < fuel → ∃ less, fuel = less + 1 ∧ levels ≤ less := by
    intro fuel hfuel
    exact ⟨fuel - 1, by omega, by omega⟩
  cases hindex : stack.findIdx? fun entry => entry.1 = world.canonical dir with
  | some index =>
    refine ⟨.ok { report with cycles := report.cycles ++
      [(stack.drop index).map Prod.snd ++ [displayPrefix front]] }, fun fuel hfuel => ?_⟩
    obtain ⟨less, heq, -⟩ := hunfold fuel hfuel
    rw [heq, inspectSubmodulesRecursive]
    simp only [hindex]
  | none =>
    cases hconfigs : world.configs debug dir with
    | error e =>
      refine ⟨.error e, fun fuel hfuel => ?_⟩
      obtain ⟨less, heq, -⟩ := hunfold fuel hfuel
      rw [heq, inspectSubmodulesRecursive]
      simp only [hindex, hconfigs]
    | ok configs =>
      obtain ⟨result, hresult⟩ := hloop configs.entries report
      refine ⟨result, fun fuel hfuel => ?_⟩
      obtain ⟨less, heq, hless⟩ := hunfold fuel hfuel
      rw [heq, inspectSubmodulesRecursive]
      simp only [hindex, hconfigs]
      exact hresult less hless

variable (debug world maxDepth) in
/-- As much fuel as there are levels left is enough, whatever the checkouts are. -/
theorem exists_inspection (levels : Nat) : ∀ (dir front : String) (depth : Nat)
    (stack : List (String × String)) (report : SubmoduleReport), maxDepth - depth ≤ levels →
    ∃ result, ∀ fuel, levels < fuel → world.inspectSubmodulesRecursive debug maxDepth fuel dir
      front depth stack report = some result := by
  have hdeep : ∀ (levels : Nat) (dir front : String) (depth : Nat)
      (stack : List (String × String)) (report : SubmoduleReport), maxDepth ≤ depth →
      ∃ result, ∀ fuel, levels < fuel → world.inspectSubmodulesRecursive debug maxDepth fuel
        dir front depth stack report = some result := by
    intro levels dir front depth stack report h
    apply inspection_of_loop
    intro entries report
    obtain ⟨result, hresult⟩ := inspectConfigs_total world maxDepth dir front depth
      (fun _ _ report => .ok report) entries report
    exact ⟨result, fun fuel _ => (inspectConfigs_of_deep h _ _ entries report).trans hresult⟩
  induction levels with
  | zero =>
    intro dir front depth stack report hlevels
    exact hdeep 0 dir front depth stack report (by omega)
  | succ levels ih =>
    intro dir front depth stack report hlevels
    by_cases hdepth : maxDepth ≤ depth
    · exact hdeep (levels + 1) dir front depth stack report hdepth
    · apply inspection_of_loop
      intro entries report
      -- the nested checkouts have one result each, the same for every fuel that is enough
      have hnested := fun dir' front' report' => ih dir' front' (depth + 1)
        (stack ++ [(world.canonical dir, displayPrefix front)]) report' (by omega)
      choose descend hdescend using hnested
      obtain ⟨result, hresult⟩ := inspectConfigs_total world maxDepth dir front depth descend
        entries report
      refine ⟨result, fun fuel hfuel => ?_⟩
      rw [← hresult]
      congr 1
      funext dir' front' report'
      exact hdescend dir' front' report' fuel (by omega)

end Ends

/-! ## Every submodule is reported -/

/-- A submodule with its path from the root of the inspection: declared by the checkout, or
within the depth limit of one that is initialised and has declarations of its own, no
checkout being entered from itself. -/
inductive WithinDepth (maxDepth : Nat) : (dir front : String) → (depth : Nat) →
    (stack : List (String × String)) → InspectedSubmodule → Prop
  | declared {dir front : String} {depth : Nat} {stack : List (String × String)}
      {records : List ConfigRecord} {name localPath : String} {config : SubmoduleConfig}
      {state : InspectedSubmodule} (hnew : world.canonical dir ∉ stack.map Prod.fst)
      (hfile : world.gitmodules dir = some records)
      (hdeclared : declared records name = some config) (hpath : config.path = some localPath)
      (hstate : world.inspectSubmodule dir name localPath config.url = .ok state) :
      WithinDepth maxDepth dir front depth stack
        { state with path := joinRepoPath front localPath }
  | nested {dir front : String} {depth : Nat} {stack : List (String × String)}
      {records : List ConfigRecord} {name localPath : String} {config : SubmoduleConfig}
      {state s : InspectedSubmodule} (hnew : world.canonical dir ∉ stack.map Prod.fst)
      (hfile : world.gitmodules dir = some records)
      (hdeclared : declared records name = some config) (hpath : config.path = some localPath)
      (hstate : world.inspectSubmodule dir name localPath config.url = .ok state)
      (hinitialized : state.worktreeCommit.isSome)
      (hfurther : (world.gitmodules (world.join dir localPath)).isSome)
      (hdepth : depth < maxDepth)
      (hwithin : WithinDepth maxDepth (world.join dir localPath) (joinRepoPath front localPath)
        (depth + 1) (stack ++ [(world.canonical dir, displayPrefix front)]) s) :
      WithinDepth maxDepth dir front depth stack s

/-- In every checkout the declarations are seen. -/
def DeclaresPlainly : Prop :=
  ∀ dir records, world.gitmodules dir = some records →
    GitConfigured records ∧ RecordsPlain records

section Reported

variable {debug world}
variable {maxDepth : Nat} {dir front : String} {depth : Nat}

/-- What the loop reports of an entry, where `Found` is what a nested inspection
reports. -/
structure EntryReported (Found : String → String → InspectedSubmodule → Prop) (maxDepth : Nat)
    (dir front : String) (depth : Nat) (name : String) (config : SubmoduleConfig)
    (result : SubmoduleReport) : Prop where
  own : ∀ localPath state, config.path = some localPath →
    world.inspectSubmodule dir name localPath config.url = .ok state →
    { state with path := joinRepoPath front localPath } ∈ result.submodules
  nested : ∀ localPath state, config.path = some localPath →
    world.inspectSubmodule dir name localPath config.url = .ok state →
    state.worktreeCommit.isSome → (world.gitmodules (world.join dir localPath)).isSome →
    depth < maxDepth → ∀ s, Found (world.join dir localPath) (joinRepoPath front localPath) s →
      s ∈ result.submodules

theorem inspectConfigs_reports {Found : String → String → InspectedSubmodule → Prop}
    {descend : String → String → SubmoduleReport →
      Option (Except DevRelayError SubmoduleReport)}
    (hdescend : ∀ dir front report result, descend dir front report = some (.ok result) →
      report.submodules ⊆ result.submodules ∧ ∀ s, Found dir front s → s ∈ result.submodules)
    {entries : List (String × SubmoduleConfig)} {report result : SubmoduleReport}
    (h : world.inspectConfigs maxDepth descend dir front depth entries report =
      some (.ok result)) :
    report.submodules ⊆ result.submodules ∧ ∀ entry ∈ entries,
      world.EntryReported Found maxDepth dir front depth entry.1 entry.2 result := by
  induction entries generalizing report with
  | nil =>
    cases h
    exact ⟨List.Subset.refl _, fun entry hentry => absurd hentry List.not_mem_nil⟩
  | cons entry rest ih =>
    rw [inspectConfigs] at h
    cases hpath : entry.2.path with
    | none =>
      rw [hpath] at h
      obtain ⟨hgrows, hrest⟩ := ih h
      refine ⟨hgrows, List.forall_mem_cons.mpr ⟨⟨?_, ?_⟩, hrest⟩⟩
      · intro localPath state hsome
        rw [hpath] at hsome
        cases hsome
      · intro localPath state hsome
        rw [hpath] at hsome
        cases hsome
    | some localPath =>
      rw [hpath] at h
      dsimp only at h
      cases hstate : world.inspectSubmodule dir entry.1 localPath entry.2.url with
      | error e =>
        rw [hstate] at h
        cases h
      | ok state =>
        rw [hstate] at h
        dsimp only at h
        -- the report with this submodule lies within the result
        have hfinish : ∀ between : SubmoduleReport,
            between.submodules ⊆ result.submodules →
            (∀ s, s ∈ report.submodules ++
              [{ state with path := joinRepoPath front localPath }] →
              s ∈ between.submodules) →
            (state.worktreeCommit.isSome →
              (world.gitmodules (world.join dir localPath)).isSome → depth < maxDepth →
              ∀ s, Found (world.join dir localPath) (joinRepoPath front localPath) s →
                s ∈ between.submodules) →
            report.submodules ⊆ result.submodules ∧
              world.EntryReported Found maxDepth dir front depth entry.1 entry.2 result := by
          intro between hbetween hreported hnested
          refine ⟨fun s hs => hbetween (hreported s (List.mem_append_left _ hs)), ?_, ?_⟩
          · intro localPath' state' hpath' hstate'
            rw [hpath] at hpath'
            cases hpath'
            rw [hstate] at hstate'
            cases hstate'
            exact hbetween (hreported _
              (List.mem_append_right _ (List.mem_singleton_self _)))
          · intro localPath' state' hpath' hstate' hsome hfurther hdepth s hs
            rw [hpath] at hpath'
            cases hpath'
            rw [hstate] at hstate'
            cases hstate'
            exact hbetween (hnested hsome hfurther hdepth s hs)
        split_ifs at h with hdescends hdeep
        · obtain ⟨hgrows, hrest⟩ := ih h
          obtain ⟨hkept, hentry⟩ := hfinish _ hgrows (fun s hs => hs)
            (fun _ _ hdepth => absurd hdeep (by omega))
          exact ⟨hkept, List.forall_mem_cons.mpr ⟨hentry, hrest⟩⟩
        · split at h
          · rename_i between hbetween
            obtain ⟨hgrows, hrest⟩ := ih h
            obtain ⟨hsubset, hfound⟩ := hdescend _ _ _ _ hbetween
            obtain ⟨hkept, hentry⟩ := hfinish between hgrows (fun s hs => hsubset hs)
              (fun _ _ _ => hfound)
            exact ⟨hkept, List.forall_mem_cons.mpr ⟨hentry, hrest⟩⟩
          · rename_i hstopped
            exact absurd h (hstopped result)
        · obtain ⟨hgrows, hrest⟩ := ih h
          obtain ⟨hkept, hentry⟩ := hfinish _ hgrows (fun s hs => hs) (by
            intro hsome hfurther
            exact absurd (by rw [hsome, hfurther]; rfl) hdescends)
          exact ⟨hkept, List.forall_mem_cons.mpr ⟨hentry, hrest⟩⟩

/-- The entry of a declared submodule. -/
theorem mem_entries_of_declared (hplain : world.DeclaresPlainly) {records : List ConfigRecord}
    {configs : SortedMap String SubmoduleConfig} {name : String} {config : SubmoduleConfig}
    (hfile : world.gitmodules dir = some records) (hconfigs : world.configs debug dir = .ok configs)
    (hdeclared : declared records name = some config) : (name, config) ∈ configs.entries := by
  obtain ⟨hconfigured, hrecords⟩ := hplain dir records hfile
  obtain ⟨seen, hseen, hfind⟩ := (seesEvery_iff debug hconfigured).mpr hrecords
  rw [SubmoduleWorld.configs, hfile] at hconfigs
  have hsame : configs = seen := Except.ok.inj (hconfigs.symm.trans hseen)
  apply SortedMap.mem_entries_of_find?
  rw [hsame, hfind, hdeclared]

theorem inspection_reports (hplain : world.DeclaresPlainly) {fuel : Nat}
    {stack : List (String × String)} {report result : SubmoduleReport}
    (h : world.inspectSubmodulesRecursive debug maxDepth fuel dir front depth stack report =
      some (.ok result)) :
    report.submodules ⊆ result.submodules ∧
      ∀ s, world.WithinDepth maxDepth dir front depth stack s → s ∈ result.submodules := by
  induction fuel generalizing dir front depth stack report result with
  | zero => cases h
  | succ fuel ih =>
    rw [inspectSubmodulesRecursive] at h
    dsimp only at h
    cases hindex : stack.findIdx? fun entry => entry.1 = world.canonical dir with
    | some index =>
      rw [hindex] at h
      cases h
      refine ⟨List.Subset.refl _, fun s hs => ?_⟩
      obtain ⟨hlt, hentry, -⟩ := List.findIdx?_eq_some_iff_getElem.mp hindex
      have hmem : world.canonical dir ∈ stack.map Prod.fst := by
        rw [← of_decide_eq_true hentry]
        exact List.mem_map_of_mem (List.getElem_mem hlt)
      cases hs with
      | declared hnew => exact absurd hmem hnew
      | nested hnew => exact absurd hmem hnew
    | none =>
      rw [hindex] at h
      dsimp only at h
      cases hconfigs : world.configs debug dir with
      | error e =>
        rw [hconfigs] at h
        cases h
      | ok configs =>
        rw [hconfigs] at h
        have hdescend : ∀ dir' front' report result,
            world.inspectSubmodulesRecursive debug maxDepth fuel dir' front' (depth + 1)
              (stack ++ [(world.canonical dir, displayPrefix front)]) report =
                some (.ok result) →
            report.submodules ⊆ result.submodules ∧ ∀ s, world.WithinDepth maxDepth dir'
              front' (depth + 1) (stack ++ [(world.canonical dir, displayPrefix front)]) s →
                s ∈ result.submodules := fun _ _ _ _ hnested => ih hnested
        obtain ⟨hgrows, hentries⟩ := inspectConfigs_reports hdescend h
        refine ⟨hgrows, fun s hs => ?_⟩
        cases hs with
        | declared hnew hfile hdeclared hpath hstate =>
          exact (hentries _ (mem_entries_of_declared hplain hfile hconfigs
            hdeclared)).own _ _ hpath hstate
        | nested hnew hfile hdeclared hpath hstate hinitialized hfurther hdepth hwithin =>
          exact (hentries _ (mem_entries_of_declared hplain hfile hconfigs
            hdeclared)).nested _ _ hpath hstate hinitialized hfurther hdepth s hwithin

theorem inspectSubmodules_reports (hplain : world.DeclaresPlainly) {report : SubmoduleReport}
    (h : world.inspectSubmodulesWithDepth debug dir maxDepth = .ok report)
    {s : InspectedSubmodule} (hs : world.WithinDepth maxDepth dir "" 0 [] s) :
    s ∈ report.submodules := by
  obtain ⟨result, hresult⟩ := exists_inspection debug world maxDepth maxDepth dir "" 0 [] {}
    (Nat.sub_le maxDepth 0)
  have hinspected := hresult (maxDepth + 1) (Nat.lt_succ_self maxDepth)
  rw [inspectSubmodulesWithDepth, hinspected, Option.getD_some] at h
  obtain ⟨unsorted, hunsorted, heq⟩ := bind_eq_ok_iff.mp h
  rw [hunsorted] at hinspected
  rw [← Except.ok.inj heq]
  exact (List.mem_insertionSort _).mpr ((inspection_reports hplain hinspected).2 s hs)

end Reported

end SubmoduleWorld

/-! ## Every dirty submodule gets its snapshot -/

theorem storeSnapshot_label {env : CheckpointEnv} {metadata : SnapshotMetadata} {pinned : Bool}
    {label : Option String} (store : SnapshotStore) :
    (storeSnapshot env metadata pinned label).Ensures (fun _ => True)
      (fun stored _ => stored.label = label) store := by
  apply storeSnapshot_ensures trivial trivial
  intro _ stored u hinsert
  obtain ⟨-, -, -, rfl⟩ := insertSnapshot_eq_ok hinsert
  exact ⟨trivial, rfl⟩

/-- The label under which the snapshot of a submodule is stored. -/
def childLabel (path : String) : Option String := some ("dirty submodule " ++ path)

theorem checkpointDirtySubmoduleChild_label (digest : Blake3) (manifest : Manifest)
    (pinned : Bool) (visit : SubmoduleVisit) (home : SnapshotHome) :
    (checkpointDirtySubmoduleChild digest manifest pinned visit).Ensures (fun _ => True)
      (fun r _ => r.2.label = childLabel visit.state.path) home := by
  unfold checkpointDirtySubmoduleChild
  extract_lets childManifest
  apply Prog.ensures_write_bind trivial
  apply Prog.ensures_bind trivial (Prog.ensures_trivial _ _)
  intro session opened _ _
  have hchild : (checkpointChildSubmoduleSnapshot digest visit childManifest session
      pinned).Ensures (fun _ => True) (fun stored _ => stored.label = childLabel visit.state.path)
      (opened.store childManifest.projectId) := by
    unfold checkpointChildSubmoduleSnapshot
    apply Prog.ensures_ofExcept_bind
    intro created _
    apply Prog.ensures_ofExcept_bind
    intro _ _
    exact storeSnapshot_label _
  have hget : ∀ (t : SnapshotStore) (u : SnapshotHome),
      (u.setStore childManifest.projectId t).store childManifest.projectId = t :=
    fun t u => SnapshotHome.store_setStore_self _ t u
  have hstored : (inStore childManifest.projectId (checkpointChildSubmoduleSnapshot digest visit
      childManifest session pinned)).Ensures (fun _ => True)
      (fun stored _ => stored.label = childLabel visit.state.path) opened :=
    Prog.ensures_within_value hget hchild
  apply Prog.ensures_bind trivial hstored
  intro stored _ _ hlabel
  exact hlabel

theorem checkpointDirtySubmodules_labels (digest : Blake3) (manifest : Manifest)
    (pinned : Bool) (visits : List SubmoduleVisit) (childLinks : List SnapshotChildSnapshot)
    (children : List StoredSnapshot) (home : SnapshotHome) :
    (checkpointDirtySubmodules digest manifest pinned visits childLinks children).Ensures
      (fun _ => True)
      (fun r _ => children ⊆ r.2 ∧ ∀ visit ∈ visits,
        ∃ child ∈ r.2, child.label = childLabel visit.state.path) home := by
  induction visits generalizing childLinks children home with
  | nil => exact Prog.ensures_pure ⟨List.Subset.refl _, fun _ h => absurd h List.not_mem_nil⟩
  | cons visit rest ih =>
    unfold checkpointDirtySubmodules
    apply Prog.ensures_bind trivial
      (checkpointDirtySubmoduleChild_label digest manifest pinned visit home)
    rintro ⟨link, stored⟩ home' _ hlabel
    apply Prog.ensures_post ?_ (ih _ _ home')
    rintro r _ ⟨hkept, hrest⟩
    refine ⟨fun child hchild => hkept (List.mem_append_left _ hchild), ?_⟩
    rw [List.forall_mem_cons]
    exact ⟨⟨stored, hkept (List.mem_append_right _ (List.mem_singleton_self stored)), hlabel⟩,
      hrest⟩

theorem checkpointWithDirtySubmodules_labels (env : SubmoduleCheckpointEnv) (projectId : String)
    (manifest : Manifest) (pinned : Bool) (label : Option String) (home : SnapshotHome) :
    (checkpointWithDirtySubmodules env projectId manifest pinned label).Ensures (fun _ => True)
      (fun r _ => ∃ visits, env.submodules = .ok visits ∧ ∀ visit ∈ visits,
        visit.state.status = .dirty →
          ∃ child ∈ r.children, child.label = childLabel visit.state.path) home := by
  unfold checkpointWithDirtySubmodules checkpointDirtySubmoduleChildren
  simp only [Prog.bind_assoc]
  apply Prog.ensures_ofExcept_bind
  intro visits hvisits
  apply Prog.ensures_bind trivial (checkpointDirtySubmodules_labels env.digest manifest pinned
    _ [] [] home)
  rintro ⟨childLinks, children⟩ home' _ ⟨-, hlabels⟩
  apply Prog.ensures_ofExcept_bind
  intro created _
  apply Prog.ensures_ofExcept_bind
  intro _ _
  apply Prog.ensures_bind trivial (Prog.ensures_trivial _ _)
  intro parent _ _ _
  refine Prog.ensures_pure ⟨visits, hvisits, fun visit hvisit hdirty => ?_⟩
  exact hlabels visit (List.mem_filter.mpr ⟨hvisit, decide_eq_true hdirty⟩)

/-- A checkpoint of the directory that succeeds has stored a child snapshot for each dirty
submodule within the depth limit; `visit` is what it finds in a reported submodule. -/
def ChecksOutEveryDirty (debug : String → String) (world : SubmoduleWorld) (dir : String)
    (maxDepth : Nat) : Prop :=
  ∀ (visit : InspectedSubmodule → SubmoduleVisit) (env : SubmoduleCheckpointEnv),
    (∀ s, (visit s).state = ⟨s.path, s.status⟩) →
    env.submodules = (world.inspectSubmodulesWithDepth debug dir maxDepth).map
      (fun report => report.submodules.map visit) →
    ∀ fault projectId manifest pinned label home result home',
      (checkpointWithDirtySubmodules env projectId manifest pinned label).exec fault 0 home =
        (.ok result, home') →
      ∀ s, world.WithinDepth maxDepth dir "" 0 [] s → s.status = .dirty →
        ∃ child ∈ result.children, child.label = childLabel s.path

theorem checksOutEveryDirty {debug : String → String} {world : SubmoduleWorld}
    (hplain : world.DeclaresPlainly) (dir : String) (maxDepth : Nat) :
    ChecksOutEveryDirty debug world dir maxDepth := by
  intro visit env hvisit hsubmodules fault projectId manifest pinned label home result home' hexec
    s hs hdirty
  obtain ⟨visits, hvisits, hchildren⟩ := Prog.exec_ok_ensures
    (checkpointWithDirtySubmodules_labels env projectId manifest pinned label home) hexec
  rw [hvisits] at hsubmodules
  cases hinspect : world.inspectSubmodulesWithDepth debug dir maxDepth with
  | error e =>
    rw [hinspect] at hsubmodules
    cases hsubmodules
  | ok report =>
    rw [hinspect] at hsubmodules
    have hmem : visit s ∈ visits := by
      rw [Except.ok.inj hsubmodules]
      exact List.mem_map_of_mem
        (SubmoduleWorld.inspectSubmodules_reports hplain hinspect hs)
    have hchild := hchildren (visit s) hmem (by rw [hvisit]; exact hdirty)
    rwa [hvisit] at hchild

/-- The submodules of a `.gitmodules` file are seen exactly when its records are plain; the
inspection ends on every world, and where all records are plain a checkpoint covers every
dirty submodule within its depth. -/
theorem submodules_seen_iff (debug : String → String) {records : List ConfigRecord}
    (hconfigured : GitConfigured records) :
    (SeesEvery records (submoduleConfigs debug (configOutput records)) ↔ RecordsPlain records) ∧
    (∀ (world : SubmoduleWorld) (dir : String) (maxDepth : Nat), ∃ result, ∀ fuel, maxDepth < fuel →
        world.inspectSubmodulesRecursive debug maxDepth fuel dir "" 0 [] {} = some result) ∧
    ∀ world : SubmoduleWorld, world.DeclaresPlainly → ∀ dir maxDepth,
      ChecksOutEveryDirty debug world dir maxDepth := by
  refine ⟨seesEvery_iff debug hconfigured, ?_, ?_⟩
  · intro world dir maxDepth
    exact SubmoduleWorld.exists_inspection debug world maxDepth maxDepth dir "" 0 [] {}
      (Nat.sub_le maxDepth 0)
  · exact fun world hplain dir maxDepth => checksOutEveryDirty hplain dir maxDepth

def demoRecords (name : String) : List ConfigRecord :=
  [⟨name.toList, .path, "lib".toList⟩, ⟨name.toList, .url, "../lib.git".toList⟩]

theorem demoRecords_configured (name : String) (h : '\n' ∉ name.toList) :
    GitConfigured (demoRecords name) := ⟨by simp [demoRecords, h], by simp [demoRecords]⟩

theorem demoRecords_plain : RecordsPlain (demoRecords "lib") where
  names := by simp [demoRecords]
  oneLine := by simp [demoRecords]
  unreturned := by simp [demoRecords]
  last r hr := by
    cases hr
    exact ⟨'t', by decide, by decide⟩

/-- A checkout with one submodule that has a changed file. -/
def changedCheckout : SubmoduleWorld where
  gitmodules dir := if dir = "work" then some (demoRecords "lib") else none
  join dir path := dir ++ "/" ++ path
  canonical := id
  lsFilesStage _ _ := some "160000 00000000000000000000000000000000000000aa 0\tlib".toList
  revParseHead _ := some "00000000000000000000000000000000000000aa"
  statusPorcelain _ := .ok " M src/lib.rs\n".toList

def changedLib : InspectedSubmodule where
  name := "lib"
  path := "lib"
  url := some "../lib.git"
  recordedCommit := some "00000000000000000000000000000000000000aa"
  worktreeCommit := some "00000000000000000000000000000000000000aa"
  status := .dirty

theorem changedLib_withinDepth : changedCheckout.WithinDepth 4 "work" "" 0 [] changedLib := by
  have hdeclared : declared (demoRecords "lib") "lib" = some ⟨some "lib", some "../lib.git"⟩ := by
    decide
  have hstate : changedCheckout.inspectSubmodule "work" "lib" "lib" (some "../lib.git") =
      .ok changedLib := by decide
  exact .declared List.not_mem_nil rfl hdeclared rfl hstate

/-- The submodule `lib` is declared and dirty, and every checkpoint that succeeds has its
snapshot. -/
theorem lib_is_seen :
    SeesEvery (demoRecords "lib") (submoduleConfigs id (configOutput (demoRecords "lib"))) ∧
      changedCheckout.WithinDepth 4 "work" "" 0 [] changedLib ∧
      ChecksOutEveryDirty id changedCheckout "work" 4 := by
  have hconfigured := demoRecords_configured "lib" (by decide)
  obtain ⟨hsees, -, hchecks⟩ := submodules_seen_iff id hconfigured
  refine ⟨hsees.mpr demoRecords_plain, changedLib_withinDepth, hchecks _ ?_ _ _⟩
  intro dir records hfile
  change (if dir = "work" then some (demoRecords "lib") else none) = some records at hfile
  split at hfile
  · cases hfile
    exact ⟨hconfigured, demoRecords_plain⟩
  · cases hfile

/-- A submodule with a blank in its name vanishes. -/
theorem blank_name_vanishes :
    GitConfigured (demoRecords "my lib") ∧
      ¬SeesEvery (demoRecords "my lib")
        (submoduleConfigs id (configOutput (demoRecords "my lib"))) := by
  refine ⟨demoRecords_configured _ (by decide), ?_⟩
  have hresult : submoduleConfigs id (configOutput (demoRecords "my lib")) =
      .ok SortedMap.empty := by
    decide
  rintro ⟨configs, hconfigs, hfind⟩
  rw [hresult] at hconfigs
  have hentry := hfind "my lib"
  rw [← Except.ok.inj hconfigs] at hentry
  have hdeclared : declared (demoRecords "my lib") "my lib" =
      some ⟨some "lib", some "../lib.git"⟩ := by
    decide
  rw [hdeclared] at hentry
  cases hentry

end DevRelay.Snapshot
