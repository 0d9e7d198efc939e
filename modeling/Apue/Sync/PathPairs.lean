import Apue.Sync.Traversals

/-! # The source and the target of a file

Every synchroniser joins the path of a source file and that of its target in
buffers of their own. Where nothing is cut off, both continue their roots with
the same relative path, and no two files have one target.
-/

namespace Apue.Sync

open Apue.Foundation

variable {files : Files} {cwd source place : Place} {limit targetLimit : Nat}
  {start target top path name : Bytes}

theorem take_append_take (front back : Bytes) (limit : Nat) :
    (front.take limit ++ back).take limit = (front ++ back).take limit := by
  rw [List.take_append, List.take_append, List.take_take, Nat.min_self, List.length_take]
  rcases Nat.le_total limit front.length with long | short
  · rw [Nat.min_eq_left long, Nat.sub_self, Nat.sub_eq_zero_of_le long]
  · rw [Nat.min_eq_right short]

/-- Joining to a path that was cut is cutting the whole. -/
theorem joinPath_take (path name : Bytes) :
    joinPath limit (path.take limit) name = joinPath limit path name :=
  take_append_take path _ limit

theorem joinPath_join (path name other : Bytes) :
    joinPath limit (joinPath limit path name) other =
      joinPath limit (path ++ Path.SLASH :: name) other :=
  joinPath_take _ other

/-- A joined path is whole or fills the buffer. -/
theorem joinPath_whole_or_full (limit : Nat) (path name : Bytes) :
    (path ++ Path.SLASH :: name).length ≤ limit ∧
        joinPath limit path name = path ++ Path.SLASH :: name ∨
      limit < (path ++ Path.SLASH :: name).length ∧ (joinPath limit path name).length = limit := by
  rcases Nat.lt_or_ge limit (path ++ Path.SLASH :: name).length with cut | fits
  · exact Or.inr ⟨cut, List.length_take_of_le cut.le⟩
  · exact Or.inl ⟨fits, List.take_of_length_le fits⟩

/-! ## Right pairs -/

/-- The two paths of a pair continue the roots with the relative path of the
file. -/
def RightPair (source : Place) (start target : Bytes) (place : Place) (pair : Bytes × Bytes) :
    Prop :=
  ∃ names, place = source ++ names ∧ (∀ name ∈ names, Path.Proper name) ∧
    pair = (start ++ Path.below names, target ++ Path.below names)

/-- Files with right pairs have one target only if they are the same. -/
theorem RightPair.place_eq {other : Place} {pair otherPair : Bytes × Bytes}
    (right : RightPair source start target place pair)
    (rightOther : RightPair source start target other otherPair)
    (same : pair.2 = otherPair.2) : place = other := by
  rcases right with ⟨names, rfl, proper, rfl⟩
  rcases rightOther with ⟨others, rfl, properOthers, rfl⟩
  rw [Path.below_injective (fun name member => (proper name member).noSlash)
    (fun name member => (properOthers name member).noSlash) (List.append_cancel_left same)]

/-- Only right pairs are handed on, and for different files only pairs with
different targets. A synchroniser processes what `processed` makes of the paths
that it hands on. -/
def pairing (files : Files) (cwd source : Place) (start target cut : Bytes)
    (processed : Bytes → Bytes → Bytes × Bytes) : Safety cwd source cut where
  allowed := fun call state => match call with
    | .handing directory name first second =>
        ∃ place, state.files.LeadsToDirectory cwd directory place ∧
          RightPair source start target (place ++ [name]) (processed first second) ∧
          ∀ earlier ∈ state.handed, earlier.place ≠ place ++ [name] →
            (processed earlier.source earlier.target).2 ≠ (processed first second).2
    | _ => True
  invariant := fun state => KeepsSource cwd source cut files state.files ∧
    ∀ earlier ∈ state.handed, RightPair source start target earlier.place
      (processed earlier.source earlier.target)
  plain := by
    intro call state plain
    cases call with
    | handing directory name first second => exact plain.elim
    | _ => trivial
  keeps := fun _ _ holds kept => ⟨holds.1.trans kept, holds.2⟩
  hands := by
    rintro directory place name first second state ⟨kept, right⟩ ⟨other, leadsOther, here, _⟩ leads
    cases leadsOther.1.symm.trans leads.1
    refine ⟨kept, fun earlier member => ?_⟩
    rcases List.mem_append.mp member with before | last
    · exact right earlier before
    · rw [List.mem_singleton.mp last]
      exact here

/-- What a synchroniser processes for paths of the recursion, if the target of a
whole source path gets cut to `targetLimit`. -/
structure Processes (limit targetLimit : Nat) (start top target : Bytes)
    (processed : Bytes → Bytes → Bytes × Bytes) : Prop where
  source : ∀ first second, first.length ≤ limit → (processed first second).1 = first
  target : ∀ names, (start ++ Path.below names).length ≤ limit →
    (processed (start ++ Path.below names) ((top ++ Path.below names).take limit)).2 =
      (target ++ Path.below names).take targetLimit

/-- No path that is joined for something other than a directory is cut. -/
def WholePaths (hands : Bool → Bool) (limit targetLimit : Nat) (files : Files) (cwd : Place)
    (start target : Bytes) : Prop :=
  ∀ path place name, Reaches files cwd limit start path place → Entry files place name →
    hands (files.lookup cwd (joinPath limit path name)).isSome = true →
    (∀ inner, ¬ files.LeadsToDirectory cwd (joinPath limit path name) inner) →
    (path ++ Path.SLASH :: name).length ≤ limit ∧
      (target ++ path.drop start.length ++ Path.SLASH :: name).length ≤ targetLimit

/-! ## Whole paths of a recursion -/

/-- The recursion is at some names below its start, and has a whole path for
them. -/
structure Inside (limit : Nat) (start top path directory : Bytes) (names : List Bytes) : Prop where
  path_eq : path = start ++ Path.below names
  joins : ∀ name, joinPath limit directory name = joinPath limit (top ++ Path.below names) name

variable {directory inner : Bytes} {names : List Bytes}

theorem Inside.here : Inside limit start top start top [] where
  path_eq := (List.append_nil start).symm
  joins := fun name => by rw [Path.below_nil, List.append_nil]

theorem Inside.entry (inside : Inside limit start top path directory names)
    (fits : (path ++ Path.SLASH :: name).length ≤ limit)
    (same : inner = joinPath limit directory name) :
    Inside limit start top (joinPath limit path name) inner (names ++ [name]) where
  path_eq := by
    rw [joinPath, List.take_of_length_le fits, inside.path_eq, Path.below_concat, List.append_assoc]
  joins := by
    intro other
    rw [same, inside.joins name]
    rw [joinPath_join, Path.below_concat, List.append_assoc]

theorem Inside.target_eq (inside : Inside limit start top path directory names) :
    target ++ path.drop start.length ++ Path.SLASH :: name =
      target ++ Path.below (names ++ [name]) := by
  rw [inside.path_eq, List.drop_left, Path.below_concat, List.append_assoc]

/-- The pair for an entry, when nothing is cut from the path of its source. -/
theorem Inside.processed (inside : Inside limit start top path directory names)
    {processed : Bytes → Bytes → Bytes × Bytes}
    (processes : Processes limit targetLimit start top target processed)
    (fits : (path ++ Path.SLASH :: name).length ≤ limit) :
    processed (joinPath limit path name) (joinPath limit directory name) =
      (start ++ Path.below (names ++ [name]),
        (target ++ Path.below (names ++ [name])).take targetLimit) := by
  have joined := (inside.entry fits rfl).path_eq
  have targets : joinPath limit directory name =
      (top ++ Path.below (names ++ [name])).take limit := by
    rw [inside.joins, joinPath, Path.below_concat, List.append_assoc]
  have short : (start ++ Path.below (names ++ [name])).length ≤ limit := by
    rw [← joined]
    exact joinPath_length_le _ _
  rw [joined, targets]
  exact Prod.ext (processes.source _ _ short) (processes.target _ short)

/-- What a joined path leads to stays what it is, unless it is a directory. -/
theorem KeepsSource.lookup_joinPath {after : Files} (wellFormed : files.WellFormed)
    (kept : KeepsSource cwd source (start.take limit) files after)
    (reached : Reaches files cwd limit start path (source ++ names))
    (entry : Entry files (source ++ names) name)
    (missing : ∀ inner, ¬ after.LeadsToDirectory cwd (joinPath limit path name) inner) :
    after.lookup cwd (joinPath limit path name) = files.lookup cwd (joinPath limit path name) := by
  have noSlash := (wellFormed.proper _ _ entry.there).noSlash
  have leadsAfter := kept.leads reached.leads
  rcases Nat.lt_or_ge path.length limit with short | long
  · have resolved := resolve_joinPath short reached.leads noSlash
    have resolvedAfter := resolve_joinPath short leadsAfter noSlash
    rw [Files.lookup, Files.lookup, resolved, resolvedAfter]
    rw [Path.step] at resolvedAfter ⊢
    split
    · rename_i empty
      rw [if_pos empty] at resolvedAfter
      exact absurd ⟨resolvedAfter, leadsAfter.2⟩ (missing _)
    · rename_i nonempty
      rw [if_neg nonempty] at resolvedAfter
      split
      · rename_i dotDot
        rw [if_pos dotDot] at resolvedAfter
        have parent := kept.directories _ (wellFormed.dropLast reached.leads.2)
        exact absurd ⟨resolvedAfter, parent⟩ (missing _)
      · rw [Option.bind_some, Option.bind_some, List.append_assoc, kept.source]
  · have same := joinPath_of_le long name
    rcases reached.short with rfl | full
    · rw [same]
      exact kept.cut
    · rw [List.take_of_length_le full] at same
      rw [same] at missing
      exact absurd leadsAfter (missing _)

/-! ## Recursions with right pairs -/

variable {Arg Result : Type} {hands : Bool → Bool} {targetDir : Bytes → Arg → Bytes}
  {program : Nat → Bytes → Arg → Sys Result} {processed : Bytes → Bytes → Bytes × Bytes}

/-- Below a directory whose path fills the buffer there are only calls for this
directory. -/
theorem DirectoryRecursion.full (recursion : DirectoryRecursion hands limit targetDir program)
    {cut : Bytes} (full : path.length = limit) :
    ∀ depth arg place (state : TreeState),
      (pairing files cwd source start target cut processed).invariant state →
      state.files.LeadsToDirectory cwd path place →
      (pairing files cwd source start target cut processed).Tame (program depth path arg) state
  | 0, arg, place, state, holds, leads => by
      rw [recursion.stops]
      exact ⟨trivial, fun never => never.elim⟩
  | depth + 1, arg, place, state, holds, leads => by
      have same : ∀ name, joinPath limit path name = path := by
        intro name
        rw [joinPath_of_le full.ge, List.take_of_length_le full.le]
      apply recursion.calls _ holds
      · intro other leadsOther
        exact Option.some.inj (leadsOther.1.symm.trans leads.1)
      intro name entry after holdsAfter kept
      rw [same]
      constructor
      · intro inner leadsInner
        refine ⟨trivial, fun innerArg _ last holdsLast keptLast => ?_⟩
        exact DirectoryRecursion.full recursion full depth innerArg inner last holdsLast
          (keptLast.leads leadsInner)
      · intro _ missing
        exact absurd (kept.leads leads) (missing place)

/-- With whole paths a recursion hands right pairs on only. -/
theorem DirectoryRecursion.pairs (recursion : DirectoryRecursion hands limit targetDir program)
    (wellFormed : files.WellFormed)
    (processes : Processes limit targetLimit start top target processed)
    (whole : WholePaths hands limit targetLimit files cwd start target) :
    ∀ depth names path arg (state : TreeState),
      Reaches files cwd limit start path (source ++ names) →
      Inside limit start top path (targetDir path arg) names →
      (∀ name ∈ names, Path.Proper name) →
      (pairing files cwd source start target (start.take limit) processed).invariant state →
      (pairing files cwd source start target (start.take limit) processed).Tame
        (program depth path arg) state
  | 0, names, path, arg, state, reached, inside, proper, holds => by
      rw [recursion.stops]
      exact ⟨trivial, fun never => never.elim⟩
  | depth + 1, names, path, arg, state, reached, inside, proper, holds => by
      have leadsNow := holds.1.leads reached.leads
      apply recursion.calls _ holds
      · intro other leads
        exact Option.some.inj (leads.1.symm.trans leadsNow.1)
      intro name entryNow after holdsAfter keptAfter
      have entry : Entry files (source ++ names) name := by
        refine ⟨?_, entryNow.noDot, entryNow.noDotDot⟩
        have there := entryNow.there
        rw [List.append_assoc, holds.1.source] at there
        rw [List.append_assoc]
        exact there
      have properName := wellFormed.proper _ _ entry.there
      have properNames : ∀ other ∈ names ++ [name], Path.Proper other := by
        intro other member
        rcases List.mem_append.mp member with front | last
        · exact proper other front
        · rw [List.mem_singleton.mp last]
          exact properName
      constructor
      · intro inner leads
        refine ⟨trivial, fun innerArg same last holdsLast keptLast => ?_⟩
        rcases joinPath_whole_or_full limit path name with ⟨fits, joined⟩ | ⟨_, full⟩
        · have step : files.resolve cwd (joinPath limit path name) =
              some (source ++ (names ++ [name])) := by
            rw [joined, Files.resolve_name reached.leads.1 reached.leads.2 properName.noSlash,
              Path.step_proper properName, List.append_assoc]
          have sameInner : inner = source ++ (names ++ [name]) := by
            exact Option.some.inj
              (leads.1.symm.trans (Files.resolve_mono holdsAfter.1.directories step))
          have directory : files.isDirectory (source ++ (names ++ [name])) = true := by
            rw [← sameInner]
            rcases Files.isDirectory_iff.mp leads.2 with ⟨size, mtime, there⟩
            rw [sameInner, holdsAfter.1.source] at there
            exact Files.isDirectory_iff.mpr ⟨size, mtime, by rw [sameInner]; exact there⟩
          exact DirectoryRecursion.pairs recursion wellFormed processes whole depth
            (names ++ [name]) _ innerArg last (.entry reached entry ⟨step, directory⟩)
            (inside.entry fits same) properNames holdsLast
        · exact recursion.full full depth innerArg inner last holdsLast (keptLast.leads leads)
      · intro there missing
        rw [holdsAfter.1.lookup_joinPath wellFormed reached entry missing] at there
        have fits := whole path _ name reached entry there
          fun inner leads => missing inner (holdsAfter.1.leads leads)
        rw [inside.target_eq] at fits
        have right : RightPair source start target (source ++ names ++ [name])
            (processed (joinPath limit path name) (joinPath limit (targetDir path arg) name)) := by
          refine ⟨names ++ [name], List.append_assoc _ _ _, properNames, ?_⟩
          rw [inside.processed processes fits.1, List.take_of_length_le fits.2]
        refine ⟨source ++ names, holdsAfter.1.leads reached.leads, right,
          fun earlier member different same => ?_⟩
        exact different ((holdsAfter.2 earlier member).place_eq right same)

/-- A recursion that hands right pairs on does so wherever it comes to. -/
theorem DirectoryRecursion.pairs_reached
    (recursion : DirectoryRecursion hands limit targetDir program)
    (wellFormed : files.WellFormed) (finite : {there | files there ≠ none}.Finite)
    (leads : files.LeadsToDirectory cwd start source) {arg : Arg} {safety : Safety cwd source cut}
    (allows : ∀ depth, safety.Allows (program depth start arg) ⟨files, []⟩)
    (reached : Reaches files cwd limit start path place) :
    path.length = limit ∨ ∃ names, place = source ++ names ∧ ∀ depth, ∃ arg',
      Inside limit start (targetDir start arg) path (targetDir path arg') names ∧
        safety.Allows (program depth path arg') ⟨files, []⟩ := by
  induction reached with
  | start leadsStart =>
      cases leads.1.symm.trans leadsStart.1
      exact Or.inr ⟨[], (List.append_nil _).symm, fun depth => ⟨arg, .here, allows depth⟩⟩
  | @entry path name place inner reached entry leadsInner hypothesis =>
      rcases joinPath_whole_or_full limit path name with ⟨fits, joined⟩ | ⟨_, full⟩
      · rcases hypothesis with full | ⟨names, rfl, allowsHere⟩
        · rw [List.length_append, List.length_cons] at fits
          omega
        · have proper := wellFormed.proper _ _ entry.there
          have step : files.resolve cwd (joinPath limit path name) =
              some (source ++ (names ++ [name])) := by
            rw [joined, Files.resolve_name reached.leads.1 reached.leads.2 proper.noSlash,
              Path.step_proper proper, List.append_assoc]
          refine Or.inr ⟨names ++ [name], Option.some.inj (leadsInner.1.symm.trans step),
            fun depth => ?_⟩
          rcases allowsHere (depth + 1) with ⟨arg', inside, allowsOuter⟩
          rcases ((recursion.enters safety finite allowsOuter reached.leads entry).1 inner
            leadsInner).2 with ⟨innerArg, same, allowsInner⟩
          exact ⟨innerArg, inside.entry fits same, allowsInner⟩
      · exact Or.inl full

/-- A recursion hands right pairs on exactly when no path that it hands on is
cut. -/
theorem DirectoryRecursion.pairs_iff (recursion : DirectoryRecursion hands limit targetDir program)
    (wellFormed : files.WellFormed) (finite : {there | files there ≠ none}.Finite)
    (leads : files.LeadsToDirectory cwd start source) (arg : Arg)
    (processes : Processes limit targetLimit start (targetDir start arg) target processed) :
    (∀ depth, (pairing files cwd source start target (start.take limit) processed).Allows
      (program depth start arg) ⟨files, []⟩) ↔
      WholePaths hands limit targetLimit files cwd start target := by
  constructor
  · intro allows path place name reached entry isHanding missing
    rcases recursion.pairs_reached wellFormed finite leads allows reached with
      full | ⟨names, rfl, allowsHere⟩
    · have same := joinPath_of_le full.ge name
      rw [List.take_of_length_le full.le] at same
      rw [same] at missing
      exact absurd reached.leads (missing place)
    · rcases allowsHere 1 with ⟨arg', inside, allowsOuter⟩
      rcases (recursion.enters _ finite allowsOuter reached.leads entry).2 isHanding missing with
        ⟨other, leadsOther, ⟨others, sameOther, proper, pair⟩, _⟩
      cases reached.leads.1.symm.trans leadsOther.1
      rw [List.append_assoc] at sameOther
      cases List.append_cancel_left sameOther
      have sourceSame : joinPath limit path name = start ++ Path.below (names ++ [name]) :=
        (processes.source _ _ (joinPath_length_le _ _)).symm.trans (congrArg Prod.fst pair)
      have short : (joinPath limit path name).length ≤ limit := joinPath_length_le path name
      have whole : path ++ Path.SLASH :: name = start ++ Path.below (names ++ [name]) := by
        rw [inside.path_eq, Path.below_concat, List.append_assoc]
      have fits : (path ++ Path.SLASH :: name).length ≤ limit := by
        rw [whole, ← sourceSame]
        exact short
      have targetSame := congrArg Prod.snd pair
      rw [inside.processed processes fits] at targetSame
      refine ⟨fits, ?_⟩
      rw [inside.target_eq, ← List.take_eq_self_iff]
      exact targetSame
  · intro whole depth
    have tame := recursion.pairs wellFormed processes whole depth [] start arg ⟨files, []⟩
      (by rw [List.append_nil]; exact .start leads) .here
      (fun _ member => absurd member List.not_mem_nil)
      ⟨.refl, fun _ member => absurd member List.not_mem_nil⟩
    exact tame.mono fun _ _ _ => trivial

/-! ## The three synchronisers -/

/-- In every run only right pairs are processed, and no two files have one target. -/
def PairsRight {Result : Type} (limit : Nat) (processed : Bytes → Bytes → Bytes × Bytes)
    (files : Files) (cwd source : Place) (start target : Bytes) (program : Nat → Sys Result) :
    Prop :=
  ∀ depth, (pairing files cwd source start target (start.take limit) processed).Allows
    (program depth) ⟨files, []⟩

/-- A thread takes both paths from the list. -/
def threadPair (first second : Bytes) : Bytes × Bytes :=
  (first.take (MAX_PATH_LEN - 1), second.take (MAX_PATH_LEN - 1))

/-- A child takes the path of the source from the list and finds that of the target
itself. -/
def workerPair (config : MultiProcess.SyncConfig) (first _second : Bytes) : Bytes × Bytes :=
  (first.take (MAX_PATH_LEN - 1), MultiProcess.workerTarget config (first.take (MAX_PATH_LEN - 1)))

theorem threadPair_processes (start target : Bytes) :
    Processes JOIN_LIMIT JOIN_LIMIT start target target threadPair where
  source := by
    intro first second short
    exact List.take_of_length_le (short.trans (by decide))
  target := by
    intro names _
    exact List.take_of_length_le ((List.length_take_le _ _).trans (by decide))

theorem workerPair_processes (config : MultiProcess.SyncConfig) :
    Processes JOIN_LIMIT (MAX_PATH_LEN - 1) config.sourceDir config.sourceDir config.targetDir
      (workerPair config) where
  source := by
    intro first second short
    exact List.take_of_length_le (short.trans (by decide))
  target := by
    intro names short
    have whole : (config.sourceDir ++ Path.below names).take (MAX_PATH_LEN - 1) =
        config.sourceDir ++ Path.below names :=
      List.take_of_length_le (short.trans (by decide))
    have inFront : config.sourceDir.isPrefixOf (config.sourceDir ++ Path.below names) = true :=
      List.isPrefixOf_iff_prefix.mpr (List.prefix_append _ _)
    have relative : MultiProcess.getRelativePath config.sourceDir
        (config.sourceDir ++ Path.below names) = (Path.below names).take (MAX_PATH_LEN - 1) := by
      rw [MultiProcess.getRelativePath, if_pos inFront, List.drop_left]
    rw [workerPair, whole, MultiProcess.workerTarget, relative, List.take_append, List.take_take,
      Nat.min_eq_left (Nat.sub_le _ _), ← List.take_append]

theorem plainPair_processes (start target : Bytes) :
    Processes SimpleRsync.JOIN_LIMIT SimpleRsync.JOIN_LIMIT start target target Prod.mk where
  source := fun _ _ _ => rfl
  target := fun _ _ => rfl

/-- The three synchronisers process right pairs exactly when nothing is cut from
the paths for the files. -/
theorem pairs_right_iff {files : Files} (wellFormed : files.WellFormed)
    (finite : {there | files there ≠ none}.Finite) {cwd source : Place} {start : Bytes}
    (leads : files.LeadsToDirectory cwd start source) (target : Bytes) :
    (∀ list, PairsRight JOIN_LIMIT threadPair files cwd source start target
        (fun depth => traverseDirectory depth start target list) ↔
      WholePaths (fun _ => true) JOIN_LIMIT JOIN_LIMIT files cwd start target) ∧
    (∀ processCount list, PairsRight JOIN_LIMIT (workerPair ⟨start, target, processCount⟩) files
        cwd source start target (fun depth => MultiProcess.traverseDirectory depth start list) ↔
      WholePaths (fun _ => true) JOIN_LIMIT (MAX_PATH_LEN - 1) files cwd start target) ∧
    ∀ dryRun, PairsRight SimpleRsync.JOIN_LIMIT Prod.mk files cwd source start target
        (fun depth => SimpleRsync.syncDirectory dryRun depth start target) ↔
      WholePaths (fun there => there) SimpleRsync.JOIN_LIMIT SimpleRsync.JOIN_LIMIT files cwd start
        target := by
  refine ⟨fun list => ?_, fun processCount list => ?_, fun dryRun => ?_⟩
  · exact traverseDirectoryLoop.directoryRecursion.pairs_iff wellFormed finite leads
      (target, list) (threadPair_processes start target)
  · exact multiProcessTraverseDirectoryLoop.directoryRecursion.pairs_iff wellFormed finite leads
      list (workerPair_processes ⟨start, target, processCount⟩)
  · exact (SimpleRsync.directoryRecursion dryRun).pairs_iff wellFormed finite leads target
      (plainPair_processes start target)

/-! ## Two files -/

/-- The directory `/s` with the files `ab` and `ac`. -/
def twoFiles : Files := fun place =>
  if place = [[115], [97, 98]] ∨ place = [[115], [97, 99]] then some (.regular ⟨[], 0, 420⟩)
  else if place = [] ∨ place = [[115]] then some (.directory 0 0)
  else none

theorem twoFiles_there {place : Place} (there : twoFiles place ≠ none) :
    place ∈ [[], [[115]], [[115], [97, 98]], [[115], [97, 99]]] := by
  rw [twoFiles] at there
  split at there
  · rename_i file
    rcases file with rfl | rfl
    · decide
    · decide
  · split at there
    · rename_i directory
      rcases directory with rfl | rfl
      · decide
      · decide
    · exact absurd rfl there

theorem twoFiles_wellFormed : twoFiles.WellFormed :=
  Files.wellFormed_of_places (fun _ => twoFiles_there) (by decide) (by decide) (by decide)

theorem twoFiles_finite : {there | twoFiles there ≠ none}.Finite :=
  Files.finite_of_places fun _ => twoFiles_there

theorem twoFiles_leads : twoFiles.LeadsToDirectory [] [47, 115] [[115]] := ⟨by decide, by decide⟩

theorem pairs_right_iff_small :
    PairsRight JOIN_LIMIT threadPair twoFiles [] [[115]] [47, 115] [47, 116]
        (fun depth => traverseDirectory depth [47, 115] [47, 116] initFileList) ↔
      WholePaths (fun _ => true) JOIN_LIMIT JOIN_LIMIT twoFiles [] [47, 115] [47, 116] :=
  (pairs_right_iff twoFiles_wellFormed twoFiles_finite twoFiles_leads [47, 116]).1 initFileList

/-- A target path of 1020 bytes. -/
def longTarget : Bytes := 47 :: List.replicate 1019 116

/-- Both files of the directory get the target that ends with `a`. -/
theorem pair_not_right :
    joinPath JOIN_LIMIT longTarget [97, 98] = joinPath JOIN_LIMIT longTarget [97, 99] ∧
      ¬ PairsRight JOIN_LIMIT threadPair twoFiles [] [[115]] [47, 115] longTarget
        (fun depth => traverseDirectory depth [47, 115] longTarget initFileList) := by
  refine ⟨by decide +kernel, fun right => ?_⟩
  have whole := (traverseDirectoryLoop.directoryRecursion.pairs_iff twoFiles_wellFormed
    twoFiles_finite twoFiles_leads (longTarget, initFileList)
    (threadPair_processes [47, 115] longTarget)).mp right
  have fits := whole [47, 115] [[115]] [97, 98] (.start twoFiles_leads)
    ⟨by decide, by decide, by decide⟩ rfl (by
      rintro inner ⟨resolved, directory⟩
      have file : twoFiles.resolve [] (joinPath JOIN_LIMIT [47, 115] [97, 98]) =
          some [[115], [97, 98]] := by decide +kernel
      cases file.symm.trans resolved
      exact absurd directory (by decide))
  exact absurd fits.2 (by decide +kernel)

end Apue.Sync
