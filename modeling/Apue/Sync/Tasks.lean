import Apue.Sync.TargetDirectories

/-! # A file among the files of others

A worker that calls `sync_file` for one of the files relies on the others to leave the
file and its target alone, and to keep the directories as they are.
-/

namespace Apue.Sync

open Apue.Foundation

/-- A file of the list, with the places that its paths lead to. -/
structure Task where
  sourcePath : Bytes
  targetPath : Bytes
  place : Place
  target : Place
  file : RegularFile

/-- Directories stay and none are added, and nothing disappears. -/
structure Steady (before after : SysState) : Prop where
  sameCwd : after.cwd = before.cwd
  directories : ∀ place, after.files.isDirectory place = before.files.isDirectory place
  stays : ∀ place, before.files place ≠ none → after.files place ≠ none
  opened : ∀ path ∈ before.opened, path ∈ after.opened

/-- The file and its target are left alone. -/
structure Spares (task : Task) (before after : SysState) : Prop extends Steady before after where
  source : after.files task.place = before.files task.place
  target : after.files task.target = before.files task.target

/-- Nothing happens but to the target of the file, if it has to be copied. -/
structure Touches (outdated : Prop) (task : Task) (before after : SysState) : Prop
    extends Steady before after where
  files : ∀ place, after.files place = before.files place ∨ outdated ∧ place = task.target
  opens : after.opened = before.opened ∨
    outdated ∧ after.opened = before.opened ++ [task.targetPath]

/-- Nothing happens but to the targets of some files that have to be copied. -/
structure Changes (outdated mine : Task → Prop) (before after : SysState) : Prop
    extends Steady before after where
  files : ∀ place, after.files place = before.files place ∨
    ∃ task, mine task ∧ outdated task ∧ place = task.target
  opens : ∃ more, after.opened = before.opened ++ more ∧
    ∀ path ∈ more, ∃ task, mine task ∧ outdated task ∧ path = task.targetPath

section Relations

variable {base before between after state : SysState} {task other : Task} {path : Bytes}
  {outdated : Prop}

theorem Steady.refl (state : SysState) : Steady state state :=
  ⟨rfl, fun _ => rfl, fun _ there => there, fun _ member => member⟩

theorem Steady.trans (first : Steady before between) (second : Steady between after) :
    Steady before after where
  sameCwd := second.sameCwd.trans first.sameCwd
  directories := fun place => (second.directories place).trans (first.directories place)
  stays := fun place there => second.stays place (first.stays place there)
  opened := fun path member => second.opened path (first.opened path member)

theorem Steady.resolve (steady : Steady before after) (path : Bytes) :
    after.files.resolve after.cwd path = before.files.resolve before.cwd path := by
  rw [steady.sameCwd]
  exact Files.resolve_congr steady.directories _ _

theorem Steady.isSome (steady : Steady before after) (found : (before.lookup path).isSome = true) :
    (after.lookup path).isSome = true := by
  rcases Option.isSome_iff_exists.mp found with ⟨⟨place, node⟩, same⟩
  rcases Files.lookup_eq_some.mp same with ⟨resolved, there⟩
  rcases Option.ne_none_iff_exists'.mp
    (steady.stays place (by rw [there]; exact Option.some_ne_none _)) with ⟨other, isThere⟩
  rw [SysState.lookup, Files.lookup_eq_some.mpr ⟨(steady.resolve path).trans resolved, isThere⟩]
  rfl

theorem Steady.made (steady : Steady before after) (made : Made path before) : Made path after :=
  fun rung member => steady.isSome (made rung member)

/-- A path whose place is left alone leads to what it led to. -/
theorem Steady.lookup (steady : Steady before after)
    (same : after.files (Path.destination before.cwd path) =
      before.files (Path.destination before.cwd path)) : after.lookup path = before.lookup path := by
  rw [SysState.lookup, SysState.lookup, Files.lookup, Files.lookup, steady.resolve path]
  cases resolved : before.files.resolve before.cwd path with
  | none => rfl
  | some place =>
      rw [← Files.resolve_eq resolved] at same
      rw [Option.bind_some, Option.bind_some, same]

/-- What a path leads to stays there if it is left alone. -/
theorem Steady.lookup_some {place : Place} {node : Node} (steady : Steady before after)
    (same : after.files place = before.files place)
    (found : before.lookup path = some (place, node)) : after.lookup path = some (place, node) := by
  rcases Files.lookup_eq_some.mp found with ⟨resolved, there⟩
  exact Files.lookup_eq_some.mpr ⟨(steady.resolve path).trans resolved, same.trans there⟩

theorem Spares.refl (task : Task) (state : SysState) : Spares task state state :=
  ⟨.refl state, rfl, rfl⟩

theorem Spares.trans (first : Spares task before between) (second : Spares task between after) :
    Spares task before after :=
  ⟨first.toSteady.trans second.toSteady, second.source.trans first.source,
    second.target.trans first.target⟩

theorem Touches.refl (outdated : Prop) (task : Task) (state : SysState) :
    Touches outdated task state state :=
  ⟨.refl state, fun _ => Or.inl rfl, Or.inl rfl⟩

/-- Other files and their targets are spared. -/
theorem Touches.spares (touches : Touches outdated task before after)
    (source : other.place ≠ task.target) (target : other.target ≠ task.target) :
    Spares other before after where
  toSteady := touches.toSteady
  source := (touches.files _).resolve_right fun changed => source changed.2
  target := (touches.files _).resolve_right fun changed => target changed.2

theorem Changes.refl (outdated mine : Task → Prop) (state : SysState) :
    Changes outdated mine state state :=
  ⟨.refl state, fun _ => Or.inl rfl,
    [], (List.append_nil _).symm, fun _ member => absurd member List.not_mem_nil⟩

theorem Changes.mono {needed mine more : Task → Prop} (changes : Changes needed mine before after)
    (implies : ∀ task, mine task → more task) : Changes needed more before after where
  toSteady := changes.toSteady
  files := fun place => (changes.files place).imp_right fun ⟨task, isMine, changed⟩ =>
    ⟨task, implies task isMine, changed⟩
  opens := by
    rcases changes.opens with ⟨opened, same, tasks⟩
    refine ⟨opened, same, fun path member => ?_⟩
    rcases tasks path member with ⟨task, isMine, changed⟩
    exact ⟨task, implies task isMine, changed⟩

theorem Changes.trans {needed mine : Task → Prop} (first : Changes needed mine before between)
    (second : Changes needed mine between after) : Changes needed mine before after where
  toSteady := first.toSteady.trans second.toSteady
  files := by
    intro place
    rcases second.files place with same | changed
    · rw [same]
      exact first.files place
    · exact Or.inr changed
  opens := by
    rcases first.opens with ⟨more, isMore, tasks⟩
    rcases second.opens with ⟨rest, isRest, others⟩
    refine ⟨more ++ rest, by rw [isRest, isMore, List.append_assoc], fun path member => ?_⟩
    rcases List.mem_append.mp member with inMore | inRest
    · exact tasks path inMore
    · exact others path inRest

/-- Files that are none of those, and their targets, are spared. -/
theorem Changes.spares {needed mine : Task → Prop} (changes : Changes needed mine before after)
    (source : ∀ task, mine task → other.place ≠ task.target)
    (target : ∀ task, mine task → other.target ≠ task.target) : Spares other before after where
  toSteady := changes.toSteady
  source := (changes.files _).resolve_right fun ⟨task, isMine, changed⟩ =>
    source task isMine changed.2
  target := (changes.files _).resolve_right fun ⟨task, isMine, changed⟩ =>
    target task isMine changed.2

theorem Touches.changes {needed mine : Task → Prop} (touches : Touches (needed task) task before after)
    (isMine : mine task) : Changes needed mine before after where
  toSteady := touches.toSteady
  files := fun place => (touches.files place).imp_right fun changed => ⟨task, isMine, changed⟩
  opens := by
    rcases touches.opens with same | ⟨isNeeded, same⟩
    · exact ⟨[], same.trans (List.append_nil _).symm, fun _ member => absurd member List.not_mem_nil⟩
    · exact ⟨[task.targetPath], same, fun path member =>
        ⟨task, isMine, isNeeded, List.mem_singleton.mp member⟩⟩

/-- The target becomes a file. -/
theorem Steady.setNode (state : SysState) {place : Place}
    (notDirectory : state.files.isDirectory place = false) (copy : RegularFile) :
    Steady state (state.setNode place (.regular copy)) where
  sameCwd := rfl
  directories := SysState.setNode_isDirectory notDirectory copy
  stays := by
    intro other there
    by_cases same : other = place
    · rw [same, SysState.setNode_files_same]
      exact Option.some_ne_none _
    · rw [SysState.setNode_files_other _ same]
      exact there
  opened := fun _ member => member

/-- The target of a file is changed. -/
theorem Touches.change {outdated : Prop} (isOutdated : outdated)
    (notDirectory : state.files.isDirectory task.target = false) (changed : RegularFile) :
    Touches outdated task state (state.setNode task.target (.regular changed)) := by
  refine ⟨.setNode state notDirectory changed, fun place => ?_, Or.inl rfl⟩
  by_cases same : place = task.target
  · exact Or.inr ⟨isOutdated, same⟩
  · exact Or.inl (SysState.setNode_files_other _ same)

/-- The target of a file is opened for writing. -/
theorem Touches.opening {outdated : Prop} (isOutdated : outdated)
    (notDirectory : state.files.isDirectory task.target = false) (copy : RegularFile) :
    Touches outdated task state
      { state.setNode task.target (.regular copy) with opened := state.opened ++ [task.targetPath] } := by
  have changed := Touches.change isOutdated notDirectory copy
  exact ⟨⟨changed.sameCwd, changed.directories, changed.stays,
    fun path member => List.mem_append_left _ member⟩, changed.files, Or.inr ⟨isOutdated, rfl⟩⟩

end Relations

/-! ## What a call of `sync_file` needs -/

/-- Where the workers start the file is there, and so is the directory of its target. -/
structure Ready (base : SysState) (task : Task) : Prop where
  reads : base.lookup task.sourcePath = some (task.place, .regular task.file)
  destination : Path.destination base.cwd task.targetPath = task.target
  different : task.place ≠ task.target
  parent : ∃ front, beforeLastSlash task.targetPath = some front ∧ front ≠ [] ∧ Made front base

/-- The target can be opened for writing. -/
structure CanBeOpened (base : SysState) (task : Task) : Prop where
  resolves : base.files.resolve base.cwd task.targetPath = some task.target
  notDirectory : base.files.isDirectory task.target = false

/-- What a worker does while it has a file in hand, and what the others do. -/
def Task.conduct (outdated total : Prop) (task : Task) : Conduct SysCall SysState where
  rely := Spares task
  guarantee := Touches outdated task
  answered := fun _ => total

section Calls

variable {base state after : SysState} {task : Task} {outdated total : Prop}

theorem Ready.source (ready : Ready base task) (spared : Spares task base state) :
    state.lookup task.sourcePath = some (task.place, .regular task.file) :=
  spared.lookup_some spared.source ready.reads

theorem Ready.lookup_target (ready : Ready base task) (spared : Spares task base state) :
    state.lookup task.targetPath = base.lookup task.targetPath := by
  apply spared.lookup
  rw [ready.destination]
  exact spared.target

theorem CanBeOpened.spared (possible : CanBeOpened base task) (spared : Spares task base state) :
    state.files.resolve state.cwd task.targetPath = some task.target ∧
      state.files.isDirectory task.target = false :=
  ⟨(spared.resolve _).trans possible.resolves, (spared.directories _).trans possible.notDirectory⟩

theorem Task.looks (base : SysState) (outdated total : Prop) (task : Task) :
    Looks (task.conduct outdated total) (Spares task base) where
  stable := fun _ _ relied spared => spared.trans relied
  quiet := Touches.refl outdated task

theorem Ready.works (ready : Ready base task) (isOutdated : outdated) :
    Works (task.conduct outdated total) task.sourcePath task.targetPath task.place task.target
      task.file where
  different := ready.different
  quiet := Touches.refl outdated task
  keepsSource := fun _ _ relied found => relied.lookup_some relied.source found
  keepsTarget := fun _ _ _ relied found => relied.lookup_some relied.target found
  keepsOpened := fun _ _ relied member => relied.opened _ member
  change := fun _ _ changed found => Touches.change isOutdated
    (SysState.isDirectory_of_regular (Files.lookup_eq_some.mp found).2) changed
  opens := fun _ copy _ notDirectory => Touches.opening isOutdated notDirectory copy

end Calls

/-! ## What a call of `sync_file` leaves -/

/-- How a synchroniser finds out that there is nothing to do for a file, and what its
copies have of the file. There is nothing to do for a copy. -/
structure Synchroniser where
  comparison : RegularFile → Option (Place × Node) → Bool
  copies : RegularFile → RegularFile → Prop
  missing : ∀ file, comparison file none = false
  same : ∀ {file copy}, copies file copy → ∀ place, comparison file (some (place, .regular copy)) = true

namespace Synchroniser

variable (kind : Synchroniser)

/-- The comparison tells that the file has to be copied. -/
def Outdated (base : SysState) (task : Task) : Prop :=
  kind.comparison task.file (base.lookup task.targetPath) = false

/-- The target is a copy of the file, or it was left alone as it was the same already. -/
def Settled (base : SysState) (task : Task) (state : SysState) : Prop :=
  ¬ kind.Outdated base task ∧ Spares task base state ∨
    kind.Outdated base task ∧ task.targetPath ∈ state.opened ∧ ∃ copy : RegularFile,
      kind.copies task.file copy ∧
        state.lookup task.targetPath = some (task.target, .regular copy)

variable {kind} {base state after : SysState} {task : Task}

/-- Others do not change what is settled. -/
theorem Settled.spared (settled : kind.Settled base task state) (spared : Spares task state after) :
    kind.Settled base task after := by
  rcases settled with ⟨current, sparedBefore⟩ | ⟨outdated, opened, copy, isCopy, found⟩
  · exact Or.inl ⟨current, sparedBefore.trans spared⟩
  · exact Or.inr ⟨outdated, spared.opened _ opened, copy, isCopy,
      spared.lookup_some spared.target found⟩

end Synchroniser

theorem comparison_copy {file copy : RegularFile}
    (copied : copy.data = file.data ∧ copy.mtime = file.mtime) (place : Place) :
    comparison file (some (place, .regular copy)) = true := by
  apply decide_eq_true
  refine ⟨?_, Or.inl copied.2.symm⟩
  change ((_ : Nat) : Int) = ((_ : Nat) : Int)
  rw [copied.1]

/-- The multi-thread synchroniser copies the bytes and the time of a file. -/
def multiThread : Synchroniser where
  comparison := comparison
  copies := fun file copy => copy.data = file.data ∧ copy.mtime = file.mtime
  missing := fun _ => rfl
  same := comparison_copy

section Calls

variable {base state : SysState} {task : Task} {total : Prop}

/-- The mark at the end of a call changes no file. -/
theorem Task.finished (outcome : Outcome) (isReturned : outcome.returned = true)
    (settled : multiThread.Settled base task state) :
    (task.conduct (multiThread.Outdated base task) total).Follows Answers
      (fun result after => result = true ∧ multiThread.Settled base task after)
      (Sys.finished outcome >>= fun _ => pure outcome.returned) state := by
  have marked : ∀ (between : SysState) (outcomes : List Outcome),
      Steady between { between with outcomes := outcomes } :=
    fun _ _ => ⟨rfl, fun _ => rfl, fun _ there => there, fun _ member => member⟩
  apply Conduct.Follows.call
  · exact fun _ between _ => ⟨_, _, .finished outcome between⟩
  · intro between relied response after answered
    cases answered
    exact ⟨⟨marked between _, fun _ => Or.inl rfl, Or.inl rfl⟩, isReturned,
      (settled.spared relied).spared ⟨marked between _, rfl, rfl⟩⟩

/-- `sync_file` settles its file, whatever the others do meanwhile. -/
theorem syncFile_follows (ready : Ready base task) (possible : total → CanBeOpened base task)
    (here : Spares task base state) :
    (task.conduct (multiThread.Outdated base task) total).Follows Answers
      (fun result after => result = true ∧ multiThread.Settled base task after)
      (syncFile task.sourcePath task.targetPath false) state := by
  have looks := Task.looks base (multiThread.Outdated base task) total task
  rw [syncFile, syncFileOutcome, bind_assoc]
  apply Conduct.Follows.bind
  apply Program.Always.mono (compareFiles_follows looks (fun state => ready.source)
    (fun state => ready.lookup_target) here)
  rintro result between ⟨rfl, spared⟩
  split
  · rename_i same
    apply Task.finished .same rfl
    refine Or.inl ⟨fun outdated => ?_, spared⟩
    exact Bool.noConfusion (outdated.symm.trans same)
  rename_i outdated
  rw [Bool.not_eq_true] at outdated
  rcases ready.parent with ⟨front, isFront, nonempty, made⟩
  rw [if_neg Bool.false_ne_true, isFront]
  dsimp only
  rw [bind_assoc]
  apply Conduct.Follows.bind
  apply Program.Always.mono (createDirectory_follows looks nonempty
    (fun state spared => spared.made made) spared)
  rintro _ last ⟨rfl, sparedLast⟩
  rw [if_pos rfl]
  apply Conduct.Follows.bind
  apply Program.Always.mono (copyFile_follows (ready.works outdated) looks (fun state => ready.source)
    (fun state spared => by rw [spared.sameCwd]; exact ready.destination)
    (fun isTotal state => (possible isTotal).spared) sparedLast)
  rintro outcome after ⟨rfl, copy, isData, isTime, writing⟩
  exact Task.finished .copied rfl
    (Or.inr ⟨outdated, writing.opened, copy, ⟨isData, isTime⟩, writing.writes⟩)

end Calls

end Apue.Sync
