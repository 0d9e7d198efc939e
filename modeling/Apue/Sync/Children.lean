import Apue.Sync.ProcessFiles
import Apue.Sync.WorkerRuns

/-! # The children together

Every child has a part of the list for its own, and the parts are apart. Behind every
schedule of the children all files are settled.
-/

namespace Apue.Sync.MultiProcess

open Apue.Foundation

/-- The loop of `worker_process`. What `sync_file` returns goes into a message only. -/
def workerFiles (buffering : Buffering) (config : SyncConfig) : List FileInfo → Sys Unit
  | [] => return ()
  | file :: files => do
      let _ ← MultiProcess.syncFile buffering file.path (workerTarget config file.path)
      workerFiles buffering config files

/-- A child from its `fork` to its `exit`: it copies its part of the list and works it
off. -/
def childProcess (buffering : Buffering) (config : SyncConfig) (slice : List Bytes) : Sys Unit := do
  let files ← slice.foldlM MultiProcess.addFileToList []
  workerFiles buffering config files

/-- The part of the list that a child copies. -/
def sliceOf (config : SyncConfig) (files : List FileInfo) (child : Nat) : List Bytes :=
  (childSlices (files.map FileInfo.path) config.processCount).getD child []

def startChildren (buffering : Buffering) (config : SyncConfig) (files : List FileInfo)
    (state : SysState) : Pool (Fin config.processCount) SysCall SysResponse SysState Unit where
  programs := fun child => childProcess buffering config (sliceOf config files child)
  state := state

/-- A run of `perform_sync` whose forks all succeed: it returns before it forks, or when
it has waited for all children. They all exit with 0. -/
inductive PerformSync (buffering : Buffering) (config : SyncConfig) (depth : Nat)
    (before : SysState) : Int → SysState → Prop
  | returned {code : Int} {after : SysState}
      (prepared : (MultiProcess.prepareSync config depth).Runs Answers before (.returned code) after) :
      PerformSync buffering config depth before code after
  | worked {files : List FileInfo} {between : SysState}
      {pool : Pool (Fin config.processCount) SysCall SysResponse SysState Unit}
      (prepared : (MultiProcess.prepareSync config depth).Runs Answers before (.work files) between)
      (reached : Pool.Reachable (fun _ => Answers) (startChildren buffering config files between) pool)
      (exited : ∀ child, pool.programs child = .done ()) :
      PerformSync buffering config depth before
        (waitChildren (List.replicate config.processCount (exitStatus 0))) pool.state

theorem waitChildren_exited (count : Nat) : waitChildren (List.replicate count (exitStatus 0)) = 1 := by
  rw [waitChildren_eq, if_neg]
  rw [Bool.not_eq_true, List.any_eq_false]
  intro status member
  rw [(List.mem_replicate.mp member).2]
  decide

/-! ## Parts of a list -/

/-- A list whose images are cut into parts is cut into parts itself. -/
theorem exists_parts {Item Image : Type} {image : Item → Image} {parts : List (List Image)}
    {items : List Item} (cut : parts.flatten = items.map image) :
    ∃ own : List (List Item), own.map (List.map image) = parts ∧ own.flatten = items := by
  induction parts generalizing items with
  | nil =>
      rw [List.flatten_nil, eq_comm, List.map_eq_nil_iff] at cut
      exact ⟨[], rfl, cut.symm⟩
  | cons part parts hypothesis =>
      rw [List.flatten_cons, eq_comm, List.map_eq_append_iff] at cut
      rcases cut with ⟨first, rest, rfl, rfl, isRest⟩
      rcases hypothesis isRest.symm with ⟨own, rfl, rfl⟩
      exact ⟨first :: own, rfl, rfl⟩

/-- The files that the children have for their own. -/
structure Ownership (base : SysState) (own : Nat → List Task) : Prop where
  ready : ∀ child, ∀ task ∈ own child, Ready base task
  targets : ∀ child, ((own child).map Task.target).Nodup
  apart : ∀ child other, child ≠ other → ∀ task ∈ own child, ∀ another ∈ own other,
    task.target ≠ another.target
  sources : ∀ child other, ∀ task ∈ own child, ∀ another ∈ own other, task.place ≠ another.target

theorem Ownership.of_workload {base : SysState} {parts : List (List Task)}
    (workload : Workload base parts.flatten) : Ownership base fun child => parts.getD child [] := by
  have inside : ∀ child task, task ∈ parts.getD child [] → task ∈ parts.flatten := by
    intro child task member
    rcases Nat.lt_or_ge child parts.length with within | behind
    · rw [List.getD_eq_getElem _ _ within] at member
      exact List.mem_flatten.mpr ⟨_, List.getElem_mem within, member⟩
    · rw [List.getD_eq_default _ _ behind] at member
      exact absurd member List.not_mem_nil
  have targets := workload.targets
  rw [List.map_flatten, List.nodup_flatten] at targets
  have separate : ∀ child other, child < other → ∀ task ∈ parts.getD child [],
      ∀ another ∈ parts.getD other [], task.target ≠ another.target := by
    intro child other before task member another memberOther same
    rcases Nat.lt_or_ge other parts.length with within | behind
    · have disjoint := List.pairwise_iff_getElem.mp targets.2 child other
        (by rw [List.length_map]; omega) (by rw [List.length_map]; exact within) before
      rw [List.getElem_map, List.getElem_map] at disjoint
      rw [List.getD_eq_getElem _ _ (by omega)] at member
      rw [List.getD_eq_getElem _ _ within] at memberOther
      exact disjoint (List.mem_map_of_mem member) (same ▸ List.mem_map_of_mem memberOther)
    · rw [List.getD_eq_default _ _ behind] at memberOther
      exact absurd memberOther List.not_mem_nil
  exact
    { ready := fun child task member => workload.ready task (inside child task member)
      targets := by
        intro child
        rcases Nat.lt_or_ge child parts.length with within | behind
        · rw [List.getD_eq_getElem _ _ within]
          exact targets.1 _ (List.mem_map_of_mem (List.getElem_mem within))
        · rw [List.getD_eq_default _ _ behind]
          exact List.nodup_nil
      apart := by
        intro child other different task member another memberOther
        rcases Nat.lt_or_gt_of_ne different with before | behind
        · exact separate child other before task member another memberOther
        · exact (separate other child behind another memberOther task member).symm
      sources := fun child other task member another memberOther =>
        workload.sources task (inside child task member) another (inside other another memberOther) }

/-! ## One child -/

section Child

variable {base before state after : SysState} {config : SyncConfig} {buffering : Buffering}
  {own : Nat → List Task} {child : Nat} {begun done : List Task} {total : Prop}

/-- What happens to the files of some children. -/
abbrev OnlyOf (base : SysState) (own : Nat → List Task) (children : Nat → Prop)
    (before after : SysState) : Prop :=
  Changes (multiProcess.Outdated base) (fun task => ∃ child, children child ∧ task ∈ own child)
    before after

/-- A child touches the targets of its own files, and the others touch those of theirs. -/
def childConduct (base : SysState) (own : Nat → List Task) (total : Prop) (child : Nat) :
    Conduct SysCall SysState where
  rely := OnlyOf base own (· ≠ child)
  guarantee := OnlyOf base own (· = child)
  answered := fun _ => total

/-- Some files of a child are settled, and it has touched no others but those it has
begun. -/
structure Sofar (base : SysState) (own : Nat → List Task) (child : Nat) (begun done : List Task)
    (state : SysState) : Prop where
  since : Changes (multiProcess.Outdated base)
    (fun task => task ∈ begun ∨ ∃ other, other ≠ child ∧ task ∈ own other) base state
  settled : ∀ task ∈ done, multiProcess.Settled base task state

theorem Ownership.spares (owned : Ownership base own) {task : Task} (member : task ∈ own child)
    (changes : OnlyOf base own (· ≠ child) before after) : Spares task before after := by
  apply changes.spares
  · rintro another ⟨other, _, memberOther⟩
    exact owned.sources child other task member another memberOther
  · rintro another ⟨other, different, memberOther⟩
    exact owned.apart child other (Ne.symm different) task member another memberOther

theorem Sofar.relied (owned : Ownership base own) (mine : ∀ task ∈ done, task ∈ own child)
    (sofar : Sofar base own child begun done before)
    (changes : OnlyOf base own (· ≠ child) before after) : Sofar base own child begun done after where
  since := sofar.since.trans (changes.mono fun _ ⟨other, others⟩ => Or.inr ⟨other, others⟩)
  settled := fun task member =>
    (sofar.settled task member).spared (owned.spares (mine task member) changes)

/-- A file that the child has not begun is as it was. -/
theorem Sofar.spares (owned : Ownership base own) {task : Task}
    (mine : ∀ other ∈ begun, other ∈ own child) (member : task ∈ own child)
    (different : ∀ other ∈ begun, task.target ≠ other.target)
    (sofar : Sofar base own child begun done state) : Spares task base state := by
  apply sofar.since.spares
  · rintro another (isBegun | ⟨other, _, memberOther⟩)
    · exact owned.sources child child task member another (mine another isBegun)
    · exact owned.sources child other task member another memberOther
  · rintro another (isBegun | ⟨other, isOther, memberOther⟩)
    · exact different another isBegun
    · exact owned.apart child other (Ne.symm isOther) task member another memberOther

/-- What a call of `sync_file` does to its file leaves the other files of the child settled. -/
theorem Sofar.touched (owned : Ownership base own) {task : Task}
    (mine : ∀ other ∈ done, other ∈ own child) (member : task ∈ own child)
    (different : ∀ other ∈ done, task.target ≠ other.target)
    (sofar : Sofar base own child (done ++ [task]) done before)
    (touches : Touches (multiProcess.Outdated base task) task before after) :
    Sofar base own child (done ++ [task]) done after where
  since := sofar.since.trans
    (touches.changes (Or.inl (List.mem_append_right _ (List.mem_singleton.mpr rfl))))
  settled := fun other isDone => (sofar.settled other isDone).spared
    (touches.spares (owned.sources child child other (mine other isDone) task member)
      (different other isDone).symm)

/-- The child settles the next of its files. -/
theorem Sofar.step (owned : Ownership base own) {task : Task}
    (mine : ∀ other ∈ done, other ∈ own child) (member : task ∈ own child)
    (different : ∀ other ∈ done, task.target ≠ other.target)
    (possible : total → CanBeOpened base task) (here : Sofar base own child done done state) :
    (childConduct base own total child).Follows Answers
      (fun _ after => Sofar base own child (done ++ [task]) (done ++ [task]) after)
      (MultiProcess.syncFile buffering task.sourcePath task.targetPath) state := by
  have begins : Sofar base own child (done ++ [task]) done state :=
    ⟨here.since.mono fun _ => Or.imp_left (List.mem_append_left _), here.settled⟩
  have widened : (childConduct base own total child).Follows Answers
      (fun result after => (result = true ∧ multiProcess.Settled base task after) ∧
        Sofar base own child (done ++ [task]) done after)
      (MultiProcess.syncFile buffering task.sourcePath task.targetPath) state := by
    have follows := syncFile_follows (owned.ready child task member) buffering possible
      (here.spares owned mine member different)
    refine Conduct.Follows.within ?_ ?_ ?_ follows begins
    · exact fun before between sofar changes =>
        ⟨sofar.relied owned mine changes, owned.spares member changes⟩
    · exact fun before after sofar touches =>
        ⟨touches.changes ⟨child, rfl, member⟩, sofar.touched owned mine member different touches⟩
    · exact fun _ isTotal => isTotal
  apply Program.Always.mono widened
  rintro result after ⟨⟨_, settled⟩, sofar⟩
  refine ⟨sofar.since, fun other among => ?_⟩
  rcases List.mem_append.mp among with isDone | isLast
  · exact sofar.settled other isDone
  · rw [List.mem_singleton.mp isLast]
    exact settled

/-- The paths of a child's copy of its part of the list are those of its files. -/
def SamePaths (config : SyncConfig) (files : List FileInfo) (tasks : List Task) : Prop :=
  files.map (fun file => (file.path, workerTarget config file.path)) =
    tasks.map fun task => (task.sourcePath, task.targetPath)

theorem workerFiles_follows (owned : Ownership base own)
    (possible : total → ∀ task ∈ own child, CanBeOpened base task) :
    ∀ rest done files state, own child = done ++ rest → SamePaths config files rest →
      Sofar base own child done done state →
      (childConduct base own total child).Follows Answers
        (fun _ after => Sofar base own child (own child) (own child) after)
        (workerFiles buffering config files) state
  | [], done, files, state, isOwn, same, here => by
      rw [SamePaths, List.map_nil, List.map_eq_nil_iff] at same
      rw [same, isOwn, List.append_nil]
      exact here
  | task :: rest, done, [], state, isOwn, same, here => by cases same
  | task :: rest, done, file :: files, state, isOwn, same, here => by
      rw [SamePaths, List.map_cons, List.map_cons, List.cons.injEq, Prod.mk.injEq] at same
      rcases same with ⟨⟨isSource, isTarget⟩, sameRest⟩
      have mine : ∀ other ∈ done, other ∈ own child := by
        intro other isDone
        rw [isOwn]
        exact List.mem_append_left _ isDone
      have member : task ∈ own child := by
        rw [isOwn]
        exact List.mem_append_right _ List.mem_cons_self
      have different : ∀ other ∈ done, task.target ≠ other.target := by
        intro other isDone same
        have targets := owned.targets child
        rw [isOwn, List.map_append, List.nodup_append'] at targets
        exact targets.2.2 (List.mem_map_of_mem isDone) (same ▸ List.mem_cons_self)
      rw [workerFiles, isTarget, isSource]
      apply Conduct.Follows.bind
      apply Program.Always.mono (Sofar.step owned mine member different
        (fun isTotal => possible isTotal task member) here)
      intro _ after sofar
      exact workerFiles_follows owned possible rest (done ++ [task]) files after
        (by rw [isOwn, List.append_assoc, List.singleton_append]) sameRest sofar

/-- A child copies the paths of its part of the list. -/
theorem copySlice_follows {holds : SysState → Prop} {conduct : Conduct SysCall SysState}
    (looks : Looks conduct holds) {slice : List Bytes} (list : List FileInfo) (here : holds state) :
    conduct.Follows Answers (fun files after => files.map FileInfo.path =
        list.map FileInfo.path ++ slice.map (List.take (MAX_PATH_LEN - 1)) ∧ holds after)
      (slice.foldlM MultiProcess.addFileToList list) state := by
  induction slice generalizing list state with
  | nil =>
      rw [List.map_nil, List.append_nil]
      exact ⟨rfl, here⟩
  | cons path slice hypothesis =>
      rw [List.foldlM_cons, MultiProcess.addFileToList, getFileSize, bind_assoc, bind_assoc]
      apply Conduct.Follows.call
      · exact fun _ between _ => ⟨_, between, .stat path between⟩
      · intro between relied response after answered
        have holdsBetween := looks.stable _ _ relied here
        rcases answers_stat answered with ⟨rfl, rfl⟩
        refine ⟨looks.quiet _, ?_⟩
        have added : ∀ size, conduct.Follows Answers (fun files last => files.map FileInfo.path =
            list.map FileInfo.path ++ (path :: slice).map (List.take (MAX_PATH_LEN - 1)) ∧ holds last)
            (slice.foldlM MultiProcess.addFileToList
              (list ++ [⟨path.take (MAX_PATH_LEN - 1), size⟩])) after := by
          intro size
          apply Program.Always.mono (hypothesis _ holdsBetween)
          rintro files last ⟨paths, holdsLast⟩
          refine ⟨?_, holdsLast⟩
          rw [paths, List.map_append, List.append_assoc]
          rfl
        cases after.statOf path with
        | none => exact added (-1)
        | some found => exact added found.size

theorem childConduct_looks (owned : Ownership base own) :
    Looks (childConduct base own total child) (Sofar base own child [] []) where
  stable := fun _ _ changes sofar =>
    sofar.relied owned (fun _ member => absurd member List.not_mem_nil) changes
  quiet := Changes.refl _ _

/-- A child settles all of its files. -/
theorem childProcess_follows (owned : Ownership base own)
    (possible : total → ∀ task ∈ own child, CanBeOpened base task) {slice : List Bytes}
    (paths : slice = (own child).map Task.sourcePath)
    (short : ∀ task ∈ own child, task.sourcePath.length < MAX_PATH_LEN ∧
      workerTarget config task.sourcePath = task.targetPath) :
    (childConduct base own total child).Follows Answers
      (fun _ after => Sofar base own child (own child) (own child) after)
      (childProcess buffering config slice) base := by
  have begins : Sofar base own child [] [] base :=
    ⟨Changes.refl _ _ base, fun _ member => absurd member List.not_mem_nil⟩
  rw [childProcess]
  apply Conduct.Follows.bind
  apply Program.Always.mono (copySlice_follows (childConduct_looks owned) [] begins)
  rintro files after ⟨copied, sofar⟩
  apply workerFiles_follows owned possible (own child) [] files after rfl _ sofar
  have sources : files.map FileInfo.path = (own child).map Task.sourcePath := by
    rw [copied, paths, List.map_nil, List.nil_append, List.map_map]
    apply List.map_congr_left
    intro task member
    exact take_of_short (short task member).1
  have split : files.map (fun file => (file.path, workerTarget config file.path)) =
      (files.map FileInfo.path).map fun path => (path, workerTarget config path) := by
    rw [List.map_map]
    rfl
  rw [SamePaths, split, sources, List.map_map]
  apply List.map_congr_left
  intro task member
  exact Prod.ext rfl (short task member).2

end Child

/-! ## All children -/

section Children

variable {base : SysState} {config : SyncConfig} {buffering : Buffering} {own : Nat → List Task}
  {files : List FileInfo} {total : Prop}

theorem children_compatible (owned : Ownership base own) (count : Nat) :
    Conduct.Compatible (fun child : Fin count => childConduct base own total child)
      (fun child (_ : Unit) state => Sofar base own child (own child) (own child) state) where
  reflexive := fun _ => Changes.refl _ _
  transitive := fun _ _ _ _ => Changes.trans
  others := fun child other _ _ different changes =>
    changes.mono fun _ ⟨same, isOther, member⟩ =>
      ⟨same, by rw [isOther]; exact Fin.val_ne_of_ne different, member⟩
  stable := fun _ _ _ _ sofar changes => sofar.relied owned (fun _ => id) changes

/-- What the children have for their own are the parts of the list. -/
structure Divided (config : SyncConfig) (files : List FileInfo) (own : Nat → List Task) : Prop where
  slices : ∀ child, sliceOf config files child = (own child).map Task.sourcePath
  short : ∀ child, ∀ task ∈ own child, task.sourcePath.length < MAX_PATH_LEN ∧
    workerTarget config task.sourcePath = task.targetPath
  inside : ∀ child task, task ∈ own child → child < config.processCount

theorem children_follow (owned : Ownership base own) (divided : Divided config files own)
    (possible : total → ∀ child, ∀ task ∈ own child, CanBeOpened base task) :
    Conduct.PoolFollows (fun child : Fin config.processCount => childConduct base own total child)
      (fun _ => Answers)
      (fun child (_ : Unit) state => Sofar base own child (own child) (own child) state)
      (startChildren buffering config files base) :=
  fun child => childProcess_follows owned (fun isTotal => possible isTotal child)
    (divided.slices child) (divided.short child)

/-- What is left when all children have ended. -/
structure AllEnded (base : SysState) (own : Nat → List Task) (after : SysState) : Prop where
  since : OnlyOf base own (fun _ => True) base after
  settled : ∀ child, ∀ task ∈ own child, multiProcess.Settled base task after

theorem allEnded (divided : Divided config files own) (positive : 0 < config.processCount)
    {after : SysState}
    (ended : ∀ child : Fin config.processCount, Sofar base own child (own child) (own child) after) :
    AllEnded base own after where
  since := (ended ⟨0, positive⟩).since.mono fun task mine => by
    rcases mine with isFirst | ⟨other, _, member⟩
    · exact ⟨0, trivial, isFirst⟩
    · exact ⟨other, trivial, member⟩
  settled := fun child task member =>
    (ended ⟨child, divided.inside child task member⟩).settled task member

/-- Behind every schedule all files are settled. -/
theorem children_settle (owned : Ownership base own) (divided : Divided config files own)
    (positive : 0 < config.processCount)
    {pool : Pool (Fin config.processCount) SysCall SysResponse SysState Unit}
    (reached : Pool.Reachable (fun _ => Answers) (startChildren buffering config files base) pool)
    (exited : ∀ child, pool.programs child = .done ()) : AllEnded base own pool.state := by
  have follow := @children_follow base config buffering own files False owned divided
    fun impossible => impossible.elim
  have follows := follow.reachable (children_compatible owned _) reached
  exact allEnded divided positive fun child => follows.ended (exited child)

/-- The children come to their ends under every schedule. -/
theorem children_return (owned : Ownership base own) (divided : Divided config files own)
    (positive : 0 < config.processCount)
    (possible : ∀ child, ∀ task ∈ own child, CanBeOpened base task) :
    (startChildren buffering config files base).Returns (fun _ => Answers) (AllEnded base own) := by
  apply (children_follow owned divided fun _ : True => possible).returns
    (children_compatible owned _)
  · exact fun _ _ => trivial
  · intro state ended
    exact allEnded divided positive fun child => (ended child).choose_spec

end Children

end Apue.Sync.MultiProcess
