import Apue.Sync.Listings
import Apue.Sync.WellFormedTrees

/-! # The directories of the target

`perform_sync` creates the directory of the target, and `sync_directory_structure` the
directories below it. What was created once is not created again.
-/

namespace Apue.Sync

open Apue.Foundation

/-- `create_directory` has nothing left to create. -/
def Made (path : Bytes) (state : SysState) : Prop :=
  ∀ rung ∈ rungs path, (state.lookup (mkdirPath rung)).isSome = true

/-- No regular file is in the way. -/
structure WayFree (state : SysState) (path : Bytes) : Prop where
  root : state.files.isDirectory [] = true
  cwd : state.files.isDirectory state.cwd = true
  way : ∀ rung ∈ slashPrefixes path, ¬ NamesFile state rung

section Created

variable {state before after : SysState} {path rung : Bytes} {ways more : Place → Prop} {total : Prop}

theorem there_of_isSome (found : (state.lookup path).isSome = true) :
    state.files (Path.destination state.cwd path) ≠ none := by
  rcases Option.isSome_iff_exists.mp found with ⟨⟨place, node⟩, same⟩
  rcases Files.lookup_eq_some.mp same with ⟨resolved, there⟩
  rw [← Files.resolve_eq resolved, there]
  exact Option.some_ne_none _

theorem isSome_of_leads {place : Place}
    (leads : state.files.LeadsToDirectory state.cwd path place) :
    (state.lookup path).isSome = true := by
  rcases Files.isDirectory_iff.mp leads.2 with ⟨size, mtime, there⟩
  rw [SysState.lookup, Files.lookup_eq_some.mpr ⟨leads.1, there⟩]
  rfl

theorem isSome_mkdirPath (found : (state.lookup path).isSome = true) :
    (state.lookup (mkdirPath path)).isSome = true := by
  rcases Option.isSome_iff_exists.mp found with ⟨⟨place, node⟩, same⟩
  rcases Files.lookup_eq_some.mp same with ⟨resolved, there⟩
  rw [SysState.lookup, Files.lookup_eq_some.mpr ⟨resolve_mkdirPath resolved, there⟩]
  rfl

/-- What the function copies of its argument. -/
theorem rungs_of_short (short : path.length < MAX_PATH_LEN) :
    rungs path = ladder (if path.getLast? = some Path.SLASH then path.dropLast else path) := by
  rw [rungs, take_of_short short]

/-- The directories that are made are the path itself or in front of its slashes. -/
theorem isRung_of_rungs (short : path.length < MAX_PATH_LEN) (member : rung ∈ rungs path) :
    IsRung path rung := by
  rw [rungs_of_short short] at member
  exact ladder_isRung (slash_taken_off path) rung member

theorem mem_ladder_of_isRung (nonempty : rung ≠ []) (isRung : IsRung path rung) : rung ∈ ladder path := by
  rcases isRung with rfl | isPrefix
  · exact List.mem_append_right _ (List.mem_singleton.mpr rfl)
  · exact List.mem_append_left _ (mem_slashPrefixes.mpr ⟨nonempty, isPrefix⟩)

theorem rungs_nonempty (nonempty : path ≠ []) (short : path.length < MAX_PATH_LEN)
    (notRoot : path ≠ [Path.SLASH]) (member : rung ∈ rungs path) : rung ≠ [] := by
  rw [rungs_of_short short] at member
  rcases List.mem_append.mp member with inFront | last
  · exact (mem_slashPrefixes.mp inFront).1
  · rw [List.mem_singleton.mp last]
    rcases slash_taken_off path with same | same
    · rw [same]
      exact nonempty
    · intro empty
      rw [empty] at same
      exact notRoot same

/-- Every directory of a path is one that is made, but for a slash at the end. -/
theorem exists_rung (cwd : Place) (short : path.length < MAX_PATH_LEN) (notRoot : path ≠ [Path.SLASH])
    (member : rung ∈ ladder path) :
    ∃ made ∈ rungs path, Path.destination cwd made = Path.destination cwd rung := by
  rw [rungs_of_short short]
  rcases slash_taken_off path with same | same
  · rw [same]
    exact ⟨rung, member, rfl⟩
  · generalize (if path.getLast? = some Path.SLASH then path.dropLast else path) = tmp at same
    have nonempty : tmp ≠ [] := by
      rintro rfl
      exact notRoot same
    rw [same, ladder_join nonempty List.not_mem_nil] at member
    rcases List.mem_append.mp member with inFront | last
    · exact ⟨rung, inFront, rfl⟩
    · refine ⟨tmp, List.mem_append_right _ (List.mem_singleton.mpr rfl), ?_⟩
      rw [List.mem_singleton.mp last, Path.destination_name nonempty List.not_mem_nil]
      rfl

/-- A path that leads somewhere is made. -/
theorem Made.of_isSome (short : path.length < MAX_PATH_LEN) (notRoot : path ≠ [Path.SLASH])
    (found : (state.lookup path).isSome = true) : Made path state := by
  intro rung member
  apply isSome_mkdirPath
  rcases isRung_of_rungs short member with rfl | isPrefix
  · exact found
  · rcases Option.isSome_iff_exists.mp found with ⟨⟨place, node⟩, same⟩
    rcases Files.lookup_eq_some.mp same with ⟨resolved, _⟩
    have nonempty : path ≠ [] := by
      rintro rfl
      rw [List.prefix_nil] at isPrefix
      exact absurd isPrefix (List.append_ne_nil_of_right_ne_nil _ (List.cons_ne_nil _ _))
    have rungNonempty := rungs_nonempty nonempty short notRoot member
    rcases isPrefix with ⟨back, rfl⟩
    rw [List.append_assoc] at resolved
    exact isSome_of_leads (Files.front_of_resolve rungNonempty resolved)

theorem Made.there (made : Made path state) (short : path.length < MAX_PATH_LEN)
    (notRoot : path ≠ [Path.SLASH]) (member : rung ∈ ladder path) :
    state.files (Path.destination state.cwd rung) ≠ none := by
  rcases exists_rung state.cwd short notRoot member with ⟨other, isMade, same⟩
  have there := there_of_isSome (made other isMade)
  rw [destination_mkdirPath, same] at there
  exact there

theorem Grown.made (grown : Grown ways before after) (made : Made path before) : Made path after :=
  fun rung member => grown.isSome (made rung member)

/-- Only what was not there can be new. -/
theorem Grown.narrow (grown : Grown ways before after)
    (implies : ∀ place, before.files place = none → ways place → more place) :
    Grown more before after where
  files := fun place => (grown.files place).imp_right fun new =>
    ⟨new.1, implies place new.1 new.2.1, new.2.2⟩
  others := grown.others

theorem Grown.wayFree (grown : Grown ways before after) (free : WayFree before path) :
    WayFree after path where
  root := grown.isDirectory free.root
  cwd := by
    rw [grown.sameCwd]
    exact grown.isDirectory free.cwd
  way := by
    rintro rung member ⟨file, there⟩
    apply free.way rung member
    refine ⟨file, ?_⟩
    rw [grown.sameCwd] at there
    rcases grown.files (Path.destination before.cwd rung) with same | ⟨_, _, directory⟩
    · rw [← same, there]
    · rw [Files.isDirectory, there] at directory
      cases directory

/-- The calls of `mkdir` for a path make what is missing on the way to it. -/
theorem mkdirs_throughout (nonempty : path ≠ []) (short : path.length < MAX_PATH_LEN)
    (notRoot : path ≠ [Path.SLASH])
    (leads : ∀ rung ∈ ladder path, ways (Path.destination state.cwd rung))
    (free : total → WayFree state path) :
    Throughout total (fun result after => result = true ∧ Grown ways state after ∧ Made path after)
      (mkdirs (rungs path)) state := by
  have isRungs := rungs_of_short short
  have isPath := slash_taken_off path
  have nonemptyRungs : ∀ rung ∈ rungs path, rung ≠ [] := fun rung member =>
    rungs_nonempty nonempty short notRoot member
  generalize (if path.getLast? = some Path.SLASH then path.dropLast else path) = tmp at isRungs isPath
  have made : (mkdirs (ladder tmp)).Always Answers (fun call _ => call ≠ .outOfRounds)
      (fun result last => result = true ∧ Grown ways state last ∧
        ∀ rung ∈ ladder tmp, (last.lookup (mkdirPath rung)).isSome = true) state := by
    apply mkdirs_always
    intro rung member
    rw [← isRungs] at member
    exact leads rung (mem_ladder_of_isRung (nonemptyRungs rung member) (isRung_of_rungs short member))
  have finished : Throughout total (fun result last => result = true ∧ Grown ways state last ∧
      ∀ rung ∈ ladder tmp, (last.lookup (mkdirPath rung)).isSome = true) (mkdirs (ladder tmp)) state := by
    by_cases isTotal : total
    · have isLast : tmp ∈ rungs path := by
        rw [isRungs]
        exact List.mem_append_right _ (List.mem_singleton.mpr rfl)
      have tmpPrefix : tmp <+: path := by
        rcases isPath with same | same
        · rw [same]
        · rw [same]
          exact List.prefix_append _ _
      have answerable := ladder_answerable (free isTotal).root (free isTotal).cwd
        (nonemptyRungs tmp isLast) fun rung member => (free isTotal).way rung
          (slashPrefixes_mono ((trimSlashes_isPrefix tmp).trans tmpPrefix) member)
      exact ((answerable.and made).mono_allowed fun _ _ both _ => both.1).mono fun _ _ outcome => outcome.2
    · exact made.mono_allowed fun _ _ _ impossible => absurd impossible isTotal
  rw [isRungs]
  apply finished.mono
  rintro result last ⟨isTrue, grown, found⟩
  refine ⟨isTrue, grown, ?_⟩
  rw [Made, isRungs]
  exact found

/-- The directory is made, and all that is missing on the way to it. -/
theorem createDirectory_throughout (nonempty : path ≠ []) (short : path.length < MAX_PATH_LEN)
    (notRoot : path ≠ [Path.SLASH])
    (leads : ∀ rung ∈ ladder path, ways (Path.destination state.cwd rung))
    (free : total → WayFree state path) :
    Throughout total (fun result after => result = true ∧ Grown ways state after ∧ Made path after)
      (createDirectory path) state := by
  rw [createDirectory]
  apply Program.Always.call fun _ => ⟨_, _, .access path state⟩
  intro there after answered
  rcases answers_access answered with ⟨rfl, rfl⟩
  split
  · rename_i found
    exact ⟨rfl, Grown.refl _ _, .of_isSome short notRoot found⟩
  · have made := mkdirs_throughout nonempty short notRoot leads free
    rw [rungs_of_short short, ladder] at made
    dsimp only
    rw [take_of_short short, if_neg nonempty]
    exact made

/-- Calls of `mkdir` for what is there already change nothing. -/
theorem mkdirs_follows {conduct : Conduct SysCall SysState} {holds : SysState → Prop}
    (looks : Looks conduct holds) {paths : List Bytes}
    (found : ∀ state, holds state → ∀ path ∈ paths, (state.lookup (mkdirPath path)).isSome = true)
    (here : holds state) :
    conduct.Follows Answers (fun result after => result = true ∧ holds after) (mkdirs paths) state := by
  induction paths generalizing state with
  | nil => exact ⟨rfl, here⟩
  | cons path paths hypothesis =>
      rw [mkdirs]
      apply Conduct.Follows.look looks.stable looks.quiet _ here
      · intro state here
        rw [if_neg (by rintro ⟨_, other⟩; exact other rfl)]
        exact hypothesis (fun state holds other member => found state holds other
          (List.mem_cons_of_mem _ member)) here
      · intro between holdsBetween
        rcases Option.isSome_iff_exists.mp (found between holdsBetween path List.mem_cons_self) with
          ⟨⟨place, node⟩, there⟩
        refine ⟨.mkdirExists there, fun response after answered => ?_⟩
        cases answered with
        | mkdirExists _ => exact ⟨rfl, rfl⟩
        | mkdir _ _ resolved absent =>
            rcases Files.lookup_eq_some.mp there with ⟨leads, isThere⟩
            rw [leads, Option.some.injEq] at resolved
            rw [resolved, absent] at isThere
            cases isThere

/-- A directory that is made is found so, and nothing changes. -/
theorem createDirectory_follows {conduct : Conduct SysCall SysState} {holds : SysState → Prop}
    (looks : Looks conduct holds) (nonempty : path ≠ [])
    (made : ∀ state, holds state → Made path state) (here : holds state) :
    conduct.Follows Answers (fun result after => result = true ∧ holds after)
      (createDirectory path) state := by
  rw [createDirectory, fileExists]
  apply Conduct.Follows.call
  · exact fun _ between _ => ⟨_, between, .access path between⟩
  · intro between relied response after answered
    have holdsBetween := looks.stable _ _ relied here
    rcases answers_access answered with ⟨rfl, rfl⟩
    refine ⟨looks.quiet _, ?_⟩
    split
    · exact ⟨rfl, holdsBetween⟩
    · dsimp only
      rw [if_neg (by simpa [MAX_PATH_LEN] using nonempty)]
      exact mkdirs_follows looks made holdsBetween

end Created


/-! ## The directories below the target -/

section Recursion

variable {base state after : SysState} {sourceDir : Bytes} {source : Place} {names : List Bytes}
  {ways : Place → Prop} {total : Prop}

theorem Grown.source_same (grown : Grown ways base state) (outside : ∀ names, ¬ ways (source ++ names))
    (names : List Bytes) : state.files (source ++ names) = base.files (source ++ names) := by
  rcases grown.files (source ++ names) with same | ⟨_, way, _⟩
  · exact same
  · exact absurd way (outside names)

theorem SourceTree.grown (tree : SourceTree base sourceDir source) (grown : Grown ways base state)
    (outside : ∀ names, ¬ ways (source ++ names)) : SourceTree state sourceDir source :=
  tree.kept grown.sameCwd (fun _ => grown.isDirectory) (grown.source_same outside)

/-- A loop whose rounds make something each. -/
theorem foldlM_creates {Acc : Type} {body : Acc → Bytes → Sys Acc} {made : Bytes → SysState → Prop}
    {entries : List Bytes}
    (stays : ∀ name before after, Grown ways before after → made name before → made name after)
    (each : ∀ name ∈ entries, ∀ acc between, Grown ways base between → Throughout total
      (fun _ after => Grown ways between after ∧ made name after) (body acc name) between)
    (acc : Acc) (grown : Grown ways base state) :
    Throughout total (fun _ after => Grown ways state after ∧ ∀ name ∈ entries, made name after)
      (entries.foldlM body acc) state := by
  induction entries generalizing acc state with
  | nil => exact ⟨Grown.refl _ _, fun _ member => absurd member List.not_mem_nil⟩
  | cons name entries hypothesis =>
      rw [List.foldlM_cons]
      apply Program.Always.bind
      apply (each name List.mem_cons_self acc state grown).mono
      rintro accBetween between ⟨first, madeFirst⟩
      apply (hypothesis (fun other member => each other (List.mem_cons_of_mem _ member)) accBetween
        (grown.trans first)).mono
      rintro _ after ⟨rest, madeRest⟩
      refine ⟨first.trans rest, fun other member => ?_⟩
      rcases List.mem_cons.mp member with rfl | behind
      · exact stays _ _ _ rest madeFirst
      · exact madeRest other behind

/-- A recursion that makes something for every directory that it comes to makes it for
all the directories below. -/
theorem LoopRecursion.creates {Arg Acc : Type} {hidden : Bytes → Arg → Bytes}
    {program : Nat → Bytes → Arg → Sys Acc}
    (recursion : LoopRecursion false JOIN_LIMIT hidden program)
    (tree : SourceTree base sourceDir source) (outside : ∀ names, ¬ ways (source ++ names))
    (finite : total → {names | base.files (source ++ names) ≠ none}.Finite)
    {made : List Bytes → SysState → Prop}
    (stays : ∀ names before after, Grown ways before after → made names before → made names after)
    (prelude : ∀ names arg state, base.files.isDirectory (source ++ names) = true →
      Grown ways base state → Throughout total
        (fun _ after => Grown ways state after ∧ made names after)
        (recursion.prelude (sourceDir ++ Path.below names) arg) state)
    (leaf : ∀ path arg name acc, recursion.leaf path arg name acc = pure acc)
    {rounds : Nat} (arg : Arg) (isDirectory : base.files.isDirectory (source ++ names) = true)
    (enough : total → ∀ more, base.files (source ++ (names ++ more)) ≠ none → more.length < rounds)
    (grown : Grown ways base state) :
    Throughout total (fun _ after => Grown ways state after ∧
        ∀ more, base.files.isDirectory (source ++ (names ++ more)) = true → made (names ++ more) after)
      (program rounds (sourceDir ++ Path.below names) arg) state := by
  induction rounds generalizing names arg state with
  | zero =>
      rw [recursion.stops]
      refine ⟨fun isTotal => ?_, fun never => never.elim⟩
      rcases Files.isDirectory_iff.mp isDirectory with ⟨size, mtime, there⟩
      have none := enough isTotal [] (by rw [List.append_nil, there]; exact Option.some_ne_none _)
      exact absurd none (Nat.not_lt_zero _)
  | succ rounds hypothesis =>
      have treeHere := tree.grown grown outside
      rw [recursion.goes]
      apply treeHere.readDirectory (grown.isDirectory isDirectory)
      · simp only [grown.source_same outside]
        exact finite
      intro entries lists
      dsimp only
      apply Program.Always.bind
      apply (prelude names arg state isDirectory grown).mono
      rintro _ between ⟨grownPrelude, madeHere⟩
      have grownBetween := grown.trans grownPrelude
      have mem_iff : ∀ name, name ∈ entries ↔ name = Path.DOT ∨ name = Path.DOTDOT ∨
          base.files (source ++ (names ++ [name])) ≠ none := by
        intro name
        rw [lists.mem_iff, List.append_assoc, grown.source_same outside]
      apply Program.Always.mono (foldlM_creates _ _ (recursion.initial arg) grownBetween :
        Throughout total (fun _ after => Grown ways between after ∧ ∀ name ∈ entries, ∀ more,
          base.files.isDirectory (source ++ (names ++ [name] ++ more)) = true →
            made (names ++ [name] ++ more) after) _ between)
      · rintro _ after ⟨grownLoop, madeEntries⟩
        refine ⟨grownPrelude.trans grownLoop, fun more directory => ?_⟩
        cases more with
        | nil =>
            rw [List.append_nil]
            exact stays _ _ _ grownLoop madeHere
        | cons name more =>
            have split : names ++ name :: more = names ++ [name] ++ more := by simp
            rw [split] at directory ⊢
            apply madeEntries name _ more directory
            rw [mem_iff]
            refine Or.inr (Or.inr ?_)
            rcases Files.isDirectory_iff.mp directory with ⟨size, mtime, there⟩
            exact tree.there_above (by rw [there]; exact Option.some_ne_none _)
      · exact fun name before after grown madeBefore more directory =>
          stays _ _ _ grown (madeBefore more directory)
      intro name member acc last grownLast
      have treeLast := tree.grown grownLast outside
      have same := grownLast.source_same outside
      have entry := (mem_iff name).mp member
      rw [← same] at entry
      apply treeLast.entryBody entry
      · intro dots
        refine ⟨Grown.refl _ _, fun more directory => ?_⟩
        rcases Files.isDirectory_iff.mp directory with ⟨size, mtime, there⟩
        have proper := tree.proper _ (by rw [there]; exact Option.some_ne_none _) name (by simp)
        rcases dots with dot | dotDot
        · exact absurd dot proper.noDot
        · exact absurd dotDot proper.noDotDot
      · intro innerDirectory
        rcases Files.isDirectory_iff.mp innerDirectory with ⟨size, mtime, there⟩
        rw [same] at there
        rw [tree.joinPath (by rw [there]; exact Option.some_ne_none _)]
        apply hypothesis _ (Files.isDirectory_iff.mpr ⟨size, mtime, there⟩) _ grownLast
        intro isTotal more isMore
        have deep := enough isTotal (name :: more) (by
          rw [List.append_assoc, List.singleton_append] at isMore
          exact isMore)
        rw [List.length_cons] at deep
        omega
      · rintro ⟨file, found⟩
        rw [if_neg Bool.false_ne_true, leaf]
        refine ⟨Grown.refl _ _, fun more directory => ?_⟩
        rw [same] at found
        rcases Files.isDirectory_iff.mp directory with ⟨size, mtime, there⟩
        have isThere : base.files (source ++ (names ++ [name] ++ more)) ≠ none := by
          rw [there]
          exact Option.some_ne_none _
        rw [tree.below_file ⟨file, found⟩ isThere, List.append_nil, Files.isDirectory, found] at directory
        cases directory

end Recursion


/-! ## The multi-thread synchroniser -/

/-- Source and target once the directory of the target is made: they are apart, and the
paths for what is in them fit. -/
structure Roots (base : SysState) (sourceDir targetDir : Bytes) (source target : Place) : Prop where
  tree : SourceTree base sourceDir source
  targetFits : TargetFits base source targetDir
  apart : ∀ names others, source ++ names ≠ target ++ others
  nonempty : targetDir ≠ []
  short : targetDir.length < MAX_PATH_LEN
  destination : Path.destination base.cwd targetDir = target
  made : Made targetDir base

/-- Where there is a directory in the source. -/
def BelowTarget (base : SysState) (source target place : Place) : Prop :=
  ∃ names, names ≠ [] ∧ place = target ++ names ∧ base.files.isDirectory (source ++ names) = true

/-- No regular file is in place of a directory, or on the way to one. -/
structure DirectoriesFree (base : SysState) (source : Place) (targetDir : Bytes) : Prop where
  root : base.files.isDirectory [] = true
  cwd : base.files.isDirectory base.cwd = true
  way : ∀ rung ∈ slashPrefixes targetDir, ¬ NamesFile base rung
  inside : ∀ names, base.files.isDirectory (source ++ names) = true →
    ¬ NamesFile base (targetDir ++ Path.below names)

section Thread

variable {base state : SysState} {sourceDir targetDir : Bytes} {source target : Place}
  {names : List Bytes} {total : Prop}

theorem Roots.notRoot (roots : Roots base sourceDir targetDir source target) :
    targetDir ≠ [Path.SLASH] := by
  rintro rfl
  have isRoot : target = [] := by
    rw [← roots.destination]
    rfl
  exact roots.apart [] source (by rw [isRoot, List.append_nil, List.nil_append])

theorem Roots.outside (roots : Roots base sourceDir targetDir source target) (names : List Bytes) :
    ¬ BelowTarget base source target (source ++ names) := by
  rintro ⟨others, _, same, _⟩
  exact roots.apart names others same

theorem SourceTree.there_of_directory (isDirectory : state.files.isDirectory (source ++ names) = true) :
    state.files (source ++ names) ≠ none := by
  rcases Files.isDirectory_iff.mp isDirectory with ⟨size, mtime, there⟩
  rw [there]
  exact Option.some_ne_none _

theorem Roots.target_destination (roots : Roots base sourceDir targetDir source target)
    (there : base.files (source ++ names) ≠ none) :
    Path.destination base.cwd (targetDir ++ Path.below names) = target ++ names := by
  rw [Path.destination_below roots.nonempty (roots.tree.proper names there), roots.destination]

/-- A path that is continued is not the root. -/
theorem below_notRoot {front : Bytes} (nonempty : front ≠ []) (more : names ≠ []) :
    front ++ Path.below names ≠ [Path.SLASH] := by
  intro same
  have lengths := congrArg List.length same
  have frontLength := List.length_pos_iff.mpr nonempty
  rcases List.exists_cons_of_ne_nil more with ⟨name, rest, rfl⟩
  rw [Path.below, List.flatMap_cons] at lengths
  simp only [List.length_append, List.length_cons, List.length_nil] at lengths
  omega

/-- What is above the path for a directory of the source. -/
theorem Roots.ladder_below (roots : Roots base sourceDir targetDir source target)
    (there : base.files (source ++ names) ≠ none) {rung : Bytes}
    (member : rung ∈ ladder (targetDir ++ Path.below names)) :
    rung ∈ ladder targetDir ∨ ∃ higher, higher <+: names ∧ rung = targetDir ++ Path.below higher :=
  mem_ladder_below roots.nonempty (fun name among => (roots.tree.proper names there name among).noSlash)
    member

theorem Roots.directory_above (roots : Roots base sourceDir targetDir source target)
    (isDirectory : base.files.isDirectory (source ++ names) = true) {higher : List Bytes}
    (isPrefix : higher <+: names) : base.files.isDirectory (source ++ higher) = true := by
  rcases isPrefix with ⟨rest, rfl⟩
  rcases eq_or_ne rest [] with rfl | more
  · rw [List.append_nil] at isDirectory
    exact isDirectory
  · exact roots.tree.above higher rest more (SourceTree.there_of_directory isDirectory)

/-- A directory below the target is made, and nothing else. -/
theorem Roots.createDirectory_throughout (roots : Roots base sourceDir targetDir source target)
    (free : total → DirectoriesFree base source targetDir) (more : names ≠ [])
    (isDirectory : base.files.isDirectory (source ++ names) = true)
    (grown : Grown (BelowTarget base source target) base state) :
    Throughout total (fun _ after => Grown (BelowTarget base source target) state after ∧
        Made (targetDir ++ Path.below names) after)
      (createDirectory (targetDir ++ Path.below names)) state := by
  have there := SourceTree.there_of_directory isDirectory
  have fits := roots.targetFits names more there
  have madeHere := grown.made roots.made
  have created : Throughout total (fun result after => result = true ∧
      Grown (fun place => BelowTarget base source target place ∨
        ∃ rung ∈ ladder targetDir, place = Path.destination state.cwd rung) state after ∧
      Made (targetDir ++ Path.below names) after)
      (createDirectory (targetDir ++ Path.below names)) state := by
    apply Apue.Sync.createDirectory_throughout
      (List.append_ne_nil_of_left_ne_nil roots.nonempty _) (Nat.lt_of_le_of_lt fits (by decide))
      (below_notRoot roots.nonempty more)
    · intro rung member
      rcases roots.ladder_below there member with inFront | ⟨higher, isPrefix, rfl⟩
      · exact Or.inr ⟨rung, inFront, rfl⟩
      have higherDirectory := roots.directory_above isDirectory isPrefix
      rcases eq_or_ne higher [] with rfl | nonempty
      · refine Or.inr ⟨targetDir, List.mem_append_right _ (List.mem_singleton.mpr rfl), ?_⟩
        rw [Path.below_nil, List.append_nil]
      · refine Or.inl ⟨higher, nonempty, ?_, higherDirectory⟩
        rw [grown.sameCwd]
        exact roots.target_destination (SourceTree.there_of_directory higherDirectory)
    · intro isTotal
      apply grown.wayFree
      refine ⟨(free isTotal).root, (free isTotal).cwd, fun rung member => ?_⟩
      rcases roots.ladder_below there (List.mem_append_left _ member) with
        inFront | ⟨higher, isPrefix, rfl⟩
      · rcases List.mem_append.mp inFront with isHigher | last
        · exact (free isTotal).way rung isHigher
        · have isFree := (free isTotal).inside [] (by rw [List.append_nil]; exact roots.tree.directory)
          rw [Path.below_nil, List.append_nil] at isFree
          rw [List.mem_singleton.mp last]
          exact isFree
      · exact (free isTotal).inside higher (roots.directory_above isDirectory isPrefix)
  apply created.mono
  rintro result after ⟨_, grownAfter, made⟩
  refine ⟨grownAfter.narrow fun place absent way => ?_, made⟩
  rcases way with inside | ⟨rung, member, rfl⟩
  · exact inside
  · exact absurd absent (madeHere.there roots.short roots.notRoot member)

/-- The relative path is what is below the directory of the source. -/
theorem getRelativePath_below (fits : (sourceDir ++ Path.below names).length ≤ JOIN_LIMIT) :
    getRelativePath sourceDir (sourceDir ++ Path.below names) = (Path.below names).tail := by
  rw [getRelativePath, if_pos (List.isPrefixOf_iff_prefix.mpr (List.prefix_append _ _)),
    List.drop_left]
  dsimp only
  have tail : (if (Path.below names).head? = some Path.SLASH then (Path.below names).tail
      else Path.below names) = (Path.below names).tail := by
    cases names with
    | nil => rfl
    | cons name rest => rfl
  rw [tail, List.take_of_length_le]
  rw [List.length_append] at fits
  rw [List.length_tail]
  exact Nat.le_trans (Nat.sub_le _ _) (Nat.le_trans (Nat.le_trans (Nat.le_add_left _ _) fits) (by decide))

theorem createRelative_below (proper : ∀ name ∈ names, Path.Proper name) (more : names ≠ [])
    (fits : (targetDir ++ Path.below names).length ≤ JOIN_LIMIT) :
    createRelative targetDir (Path.below names).tail =
      createDirectory (targetDir ++ Path.below names) >>= fun _ => pure () := by
  rcases List.exists_cons_of_ne_nil more with ⟨name, rest, rfl⟩
  have isBelow : Path.below (name :: rest) = Path.SLASH :: (name ++ Path.below rest) := rfl
  have nonempty := (proper name List.mem_cons_self).nonempty
  have joined : joinPath JOIN_LIMIT targetDir (name ++ Path.below rest) =
      targetDir ++ Path.below (name :: rest) := by
    rw [isBelow] at fits ⊢
    exact List.take_of_length_le fits
  rw [createRelative, isBelow, List.tail_cons, joined, if_pos]
  · rfl
  · rw [List.length_append]
    have := List.length_pos_iff.mpr nonempty
    omega

/-- The directory of the target for a directory of the source. -/
def MadeBelow (targetDir : Bytes) (names : List Bytes) (state : SysState) : Prop :=
  Made (targetDir ++ Path.below names) state

theorem syncDirectoryStructure_throughout {config : SyncConfig}
    (roots : Roots base config.sourceDir config.targetDir source target)
    (free : total → DirectoriesFree base source config.targetDir)
    (finite : total → {names | base.files (source ++ names) ≠ none}.Finite) {depth : Nat}
    (enough : total → ∀ names, base.files (source ++ names) ≠ none → names.length < depth) :
    Throughout total (fun _ after => Grown (BelowTarget base source target) base after ∧
        ∀ names, base.files.isDirectory (source ++ names) = true →
          Made (config.targetDir ++ Path.below names) after)
      (syncDirectoryStructure config depth config.sourceDir) base := by
  have isDirectory := roots.tree.directory
  rw [← List.append_nil source] at isDirectory
  have prelude : ∀ names (arg : Unit) state, base.files.isDirectory (source ++ names) = true →
      Grown (BelowTarget base source target) base state → Throughout total
        (fun _ after => Grown (BelowTarget base source target) state after ∧
          MadeBelow config.targetDir names after)
        ((syncDirectoryStructureLoop config).prelude (config.sourceDir ++ Path.below names) arg)
        state := by
    intro names arg state isDirectory grown
    dsimp only [syncDirectoryStructureLoop]
    rcases eq_or_ne names [] with rfl | more
    · have relative : getRelativePath config.sourceDir (config.sourceDir ++ Path.below []) = [] := by
        rw [Path.below_nil, List.append_nil, getRelativePath,
          if_pos (List.isPrefixOf_iff_prefix.mpr (List.prefix_refl _)), List.drop_length]
        rfl
      have isMade := grown.made roots.made
      rw [← List.append_nil config.targetDir] at isMade
      rw [relative]
      exact ⟨Grown.refl _ _, isMade⟩
    · have there := SourceTree.there_of_directory isDirectory
      rw [getRelativePath_below (roots.tree.fits names more there),
        createRelative_below (roots.tree.proper names there) more (roots.targetFits names more there)]
      apply Program.Always.bind
      exact roots.createDirectory_throughout free more isDirectory grown
  have stays : ∀ names before after, Grown (BelowTarget base source target) before after →
      MadeBelow config.targetDir names before → MadeBelow config.targetDir names after :=
    fun _ _ _ grown => grown.made
  have created : Throughout total (fun _ after => Grown (BelowTarget base source target) base after ∧
      ∀ more, base.files.isDirectory (source ++ ([] ++ more)) = true →
        MadeBelow config.targetDir ([] ++ more) after)
      (syncDirectoryStructure config depth (config.sourceDir ++ Path.below [])) base :=
    (syncDirectoryStructureLoop config).creates roots.tree roots.outside finite stays prelude
      (fun _ _ _ _ => rfl) () isDirectory enough (Grown.refl _ base)
  rw [Path.below_nil, List.append_nil] at created
  exact created

end Thread

end Apue.Sync
