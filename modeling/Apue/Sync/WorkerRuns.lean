import Apue.Foundation.Cooperation
import Apue.Sync.Tasks

/-! # The workers together

Each worker settles the files that it is given, and relies on the others to touch the
targets of their own files only. Behind every schedule all files are settled.
-/

namespace Apue.Sync

open Apue.Foundation

section Lift

variable {System State Thread Result : Type} {Response : System → Type}
  {perform : (command : System) → State → Response command → State → Prop} {thread : Thread}
  {conduct : Conduct System State}
  {workerConduct : Conduct (WorkerCommand System) (WorkerState Thread State)}
  {holds : WorkerState Thread State → Prop} {post : Result → State → Prop}

/-- What a program does to the files it does as a part of a worker. -/
theorem liftSystem_follows
    (relied : ∀ before between, holds before → workerConduct.rely before between →
      holds between ∧ conduct.rely before.system between.system)
    (guaranteed : ∀ before after, holds before → conduct.guarantee before.system after →
      workerConduct.guarantee before { before with system := after } ∧
        holds { before with system := after })
    (answered : ∀ command, workerConduct.answered (.system command) → conduct.answered command)
    {program : Program System Response Result} {state : WorkerState Thread State}
    (follows : conduct.Follows perform post program state.system) (here : holds state) :
    workerConduct.Follows (WorkerStep perform thread)
      (fun result after => post result after.system ∧ holds after) (liftSystem program) state := by
  induction program generalizing state with
  | done result => exact ⟨follows, here⟩
  | call command next hypothesis =>
      constructor
      · intro between stepped
        rcases relied _ _ here stepped with ⟨holdsBetween, others⟩
        rcases follows.1 _ others with ⟨answers, guarantees⟩
        constructor
        · intro isAnswered
          rcases answers (answered command isAnswered) with ⟨response, after, performed⟩
          exact ⟨response, _, .system performed⟩
        · intro response after worked
          cases worked with
          | system performed => exact (guaranteed _ _ holdsBetween (guarantees _ _ performed)).1
      · rintro response after ⟨between, stepped, worked⟩
        rcases relied _ _ here stepped with ⟨holdsBetween, others⟩
        cases worked with
        | system performed =>
            apply hypothesis response
            · exact follows.2 response _ ⟨_, others, performed⟩
            · exact (guaranteed _ _ holdsBetween ((follows.1 _ others).2 _ _ performed)).2

end Lift

/-- The entry of the list for a file. -/
def Task.info (task : Task) : FileInfo :=
  ⟨task.sourcePath, task.targetPath, task.file.data.length, true⟩

/-- Files that can be worked off in any order. -/
structure Workload (base : SysState) (tasks : List Task) : Prop where
  ready : ∀ task ∈ tasks, Ready base task
  targets : (tasks.map Task.target).Nodup
  sources : ∀ task ∈ tasks, ∀ other ∈ tasks, task.place ≠ other.target

section Moved

variable {Thread : Type}

/-- The entries were handed out one after the other. -/
structure Numbered (state : WorkerState Thread SysState) : Prop where
  handed : state.handed.map Prod.snd = List.range state.list.currentIndex
  index_le : state.list.currentIndex ≤ state.list.files.length

/-- What some of the workers may have done: they took files, and touched the targets of
files that they had taken. -/
structure Moved (base : SysState) (tasks : List Task) (mine : Thread → Prop)
    (before after : WorkerState Thread SysState) : Prop
    extends Steady before.system after.system where
  list : after.list.files = before.list.files
  errors : after.errors = before.errors
  index : before.list.currentIndex ≤ after.list.currentIndex
  handed : ∃ more, after.handed = before.handed ++ more ∧ ∀ entry ∈ more, mine entry.1
  numbered : Numbered before → Numbered after
  files : ∀ place, after.system.files place = before.system.files place ∨
    ∃ thread index task, (thread, index) ∈ after.handed ∧ mine thread ∧
      tasks[index]? = some task ∧ multiThread.Outdated base task ∧ place = task.target
  opens : ∃ more, after.system.opened = before.system.opened ++ more ∧
    ∀ path ∈ more, ∃ task ∈ tasks, multiThread.Outdated base task ∧ path = task.targetPath

variable {base : SysState} {tasks : List Task} {mine more : Thread → Prop}
  {before between after state : WorkerState Thread SysState} {thread : Thread} {index : Nat}
  {task : Task}

/-- A step that is not about the files of the system. -/
theorem Moved.same_system (system : after.system = before.system)
    (list : after.list.files = before.list.files) (errors : after.errors = before.errors)
    (index : before.list.currentIndex ≤ after.list.currentIndex)
    (handed : ∃ more, after.handed = before.handed ++ more ∧ ∀ entry ∈ more, mine entry.1)
    (numbered : Numbered before → Numbered after) : Moved base tasks mine before after where
  toSteady := by
    rw [system]
    exact .refl _
  list := list
  errors := errors
  index := index
  handed := handed
  numbered := numbered
  files := fun place => Or.inl (by rw [system])
  opens := ⟨[], by rw [system, List.append_nil], fun _ member => absurd member List.not_mem_nil⟩

theorem Moved.refl (base : SysState) (tasks : List Task) (mine : Thread → Prop)
    (state : WorkerState Thread SysState) : Moved base tasks mine state state :=
  .same_system rfl rfl rfl le_rfl
    ⟨[], (List.append_nil _).symm, fun _ member => absurd member List.not_mem_nil⟩ id

theorem Moved.mem_handed (moved : Moved base tasks mine before after) {entry : Thread × Nat}
    (member : entry ∈ before.handed) : entry ∈ after.handed := by
  rcases moved.handed with ⟨more, same, _⟩
  rw [same]
  exact List.mem_append_left _ member

theorem Moved.trans (first : Moved base tasks mine before between)
    (second : Moved base tasks mine between after) : Moved base tasks mine before after where
  toSteady := first.toSteady.trans second.toSteady
  list := second.list.trans first.list
  errors := second.errors.trans first.errors
  index := first.index.trans second.index
  handed := by
    rcases first.handed with ⟨firstMore, firstSame, firstMine⟩
    rcases second.handed with ⟨secondMore, secondSame, secondMine⟩
    refine ⟨firstMore ++ secondMore, ?_, fun entry member => ?_⟩
    · rw [secondSame, firstSame, List.append_assoc]
    · exact (List.mem_append.mp member).elim (firstMine entry) (secondMine entry)
  numbered := fun numbered => second.numbered (first.numbered numbered)
  files := by
    intro place
    rcases second.files place with same | changed
    · rw [same]
      apply (first.files place).imp_right
      rintro ⟨thread, index, task, member, rest⟩
      exact ⟨thread, index, task, second.mem_handed member, rest⟩
    · exact Or.inr changed
  opens := by
    rcases first.opens with ⟨firstMore, firstSame, firstTasks⟩
    rcases second.opens with ⟨secondMore, secondSame, secondTasks⟩
    refine ⟨firstMore ++ secondMore, ?_, fun path member => ?_⟩
    · rw [secondSame, firstSame, List.append_assoc]
    · exact (List.mem_append.mp member).elim (firstTasks path) (secondTasks path)

theorem Moved.mono (moved : Moved base tasks mine before after)
    (implies : ∀ thread, mine thread → more thread) : Moved base tasks more before after where
  toSteady := moved.toSteady
  list := moved.list
  errors := moved.errors
  index := moved.index
  handed := by
    rcases moved.handed with ⟨new, same, isMine⟩
    exact ⟨new, same, fun entry member => implies _ (isMine entry member)⟩
  numbered := moved.numbered
  files := by
    intro place
    apply (moved.files place).imp_right
    rintro ⟨thread, index, task, member, isMine, rest⟩
    exact ⟨thread, index, task, member, implies _ isMine, rest⟩
  opens := moved.opens

theorem Workload.same_index (workload : Workload base tasks) {other : Task} {otherIndex : Nat}
    (isTask : tasks[index]? = some task) (isOther : tasks[otherIndex]? = some other)
    (same : task.target = other.target) : index = otherIndex := by
  have inside := (List.getElem?_eq_some_iff.mp isTask).1
  apply (List.getElem?_inj (by rw [List.length_map]; exact inside) workload.targets).mp
  rw [List.getElem?_map, List.getElem?_map, isTask, isOther, Option.map_some, Option.map_some, same]

/-- An entry is given to one worker only. -/
theorem Numbered.same_thread (numbered : Numbered state) {other : Thread}
    (mine : (thread, index) ∈ state.handed) (others : (other, index) ∈ state.handed) :
    thread = other := by
  have nodup : (state.handed.map Prod.snd).Nodup := by
    rw [numbered.handed]
    exact List.nodup_range
  have same := List.inj_on_of_nodup_map nodup mine others rfl
  exact congrArg Prod.fst same

/-- The others spare the file that a worker was given. -/
theorem Moved.spares (moved : Moved base tasks (· ≠ thread) before after)
    (workload : Workload base tasks) (numbered : Numbered before)
    (member : (thread, index) ∈ before.handed) (isTask : tasks[index]? = some task) :
    Spares task before.system after.system where
  toSteady := moved.toSteady
  source := by
    apply (moved.files task.place).resolve_right
    rintro ⟨other, otherIndex, changed, _, _, isOther, _, same⟩
    exact workload.sources task (List.mem_of_getElem? isTask) changed (List.mem_of_getElem? isOther) same
  target := by
    apply (moved.files task.target).resolve_right
    rintro ⟨other, otherIndex, changed, isHanded, different, isOther, _, same⟩
    cases workload.same_index isTask isOther same
    exact different ((moved.numbered numbered).same_thread isHanded (moved.mem_handed member))

/-- What a worker does to the file that it was given. -/
theorem Touches.moved {system : SysState} (touches : Touches (multiThread.Outdated base task) task state.system system)
    (member : (thread, index) ∈ state.handed) (isTask : tasks[index]? = some task) :
    Moved base tasks (· = thread) state { state with system := system } where
  toSteady := touches.toSteady
  list := rfl
  errors := rfl
  index := le_rfl
  handed := ⟨[], (List.append_nil _).symm, fun _ member => absurd member List.not_mem_nil⟩
  numbered := fun numbered => ⟨numbered.handed, numbered.index_le⟩
  files := fun place => (touches.files place).imp_right fun changed =>
    ⟨thread, index, task, member, rfl, isTask, changed⟩
  opens := by
    rcases touches.opens with same | ⟨outdated, same⟩
    · exact ⟨[], same.trans (List.append_nil _).symm, fun _ member => absurd member List.not_mem_nil⟩
    · refine ⟨[task.targetPath], same, fun path member => ?_⟩
      exact ⟨task, List.mem_of_getElem? isTask, outdated, List.mem_singleton.mp member⟩

/-! ## One worker -/

/-- Nothing has happened to the list yet. -/
structure Starts (tasks : List Task) (start : WorkerState Thread SysState) : Prop where
  files : start.list.files = tasks.map Task.info
  index : start.list.currentIndex = 0
  handed : start.handed = []

/-- A worker has settled the files that it was given, but for one that it has in hand. -/
structure Busy (tasks : List Task) (start : WorkerState Thread SysState) (thread : Thread)
    (current : Option Nat) (state : WorkerState Thread SysState) : Prop where
  since : Moved start.system tasks (fun _ => True) start state
  settled : ∀ index task, (thread, index) ∈ state.handed → current ≠ some index →
    tasks[index]? = some task → multiThread.Settled start.system task state.system
  inHand : ∀ index ∈ current, (thread, index) ∈ state.handed

/-- What a worker does, and what the others do. -/
def workerConduct (base : SysState) (tasks : List Task) (total : Prop) (thread : Thread) :
    Conduct (WorkerCommand SysCall) (WorkerState Thread SysState) where
  rely := Moved base tasks (· ≠ thread)
  guarantee := Moved base tasks (· = thread)
  answered := fun _ => total

variable {start : WorkerState Thread SysState} {current : Option Nat} {total : Prop}

theorem Starts.numbered (starts : Starts tasks start) : Numbered start where
  handed := by
    rw [starts.handed, starts.index]
    rfl
  index_le := by
    rw [starts.index]
    exact Nat.zero_le _

theorem Busy.refl (starts : Starts tasks start) (thread : Thread) :
    Busy tasks start thread none start where
  since := .refl _ _ _ _
  settled := by
    intro index task member
    rw [starts.handed] at member
    exact absurd member List.not_mem_nil
  inHand := fun _ impossible => absurd impossible (Option.not_mem_none _)

theorem Busy.numbered (busy : Busy tasks start thread current state) (starts : Starts tasks start) :
    Numbered state :=
  busy.since.numbered starts.numbered

theorem Busy.files (busy : Busy tasks start thread current state) (starts : Starts tasks start) :
    state.list.files = tasks.map Task.info :=
  busy.since.list.trans starts.files

/-- The others go on. -/
theorem Busy.relied (busy : Busy tasks start thread current before) (starts : Starts tasks start)
    (workload : Workload start.system tasks)
    (relied : Moved start.system tasks (· ≠ thread) before after) :
    Busy tasks start thread current after where
  since := busy.since.trans (relied.mono fun _ _ => trivial)
  settled := by
    intro index task member different isTask
    rcases relied.handed with ⟨more, same, others⟩
    rw [same] at member
    rcases List.mem_append.mp member with old | new
    · exact (busy.settled index task old different isTask).spared
        (relied.spares workload (busy.numbered starts) old isTask)
    · exact absurd rfl (others _ new)
  inHand := fun index isCurrent => relied.mem_handed (busy.inHand index isCurrent)

/-- Counters and records are nobody's files. -/
theorem Moved.counted (list : after.list = before.list) (handed : after.handed = before.handed)
    (errors : after.errors = before.errors) (system : after.system = before.system) :
    Moved base tasks mine before after := by
  apply Moved.same_system system (by rw [list]) errors (by rw [list])
  · exact ⟨[], by rw [handed, List.append_nil], fun _ member => absurd member List.not_mem_nil⟩
  · rintro ⟨isNumbered, within⟩
    rw [← handed, ← list] at isNumbered
    rw [← list] at within
    exact ⟨isNumbered, within⟩

theorem Busy.counted (busy : Busy tasks start thread current before)
    (list : after.list = before.list) (handed : after.handed = before.handed)
    (errors : after.errors = before.errors) (system : after.system = before.system) :
    Busy tasks start thread current after where
  since := busy.since.trans (.counted list handed errors system)
  settled := by
    rw [system, handed]
    exact busy.settled
  inHand := by
    rw [handed]
    exact busy.inHand

theorem getNextFile_some {list rest : FileList} {file : FileInfo}
    (taken : getNextFile list = (some (index, file), rest)) :
    index = list.currentIndex ∧ list.files[list.currentIndex]? = some file ∧
      rest = { list with currentIndex := list.currentIndex + 1 } := by
  rw [getNextFile] at taken
  cases found : list.files[list.currentIndex]? with
  | none =>
      rw [found] at taken
      cases taken
  | some other =>
      rw [found] at taken
      cases taken
      exact ⟨rfl, rfl, rfl⟩

/-- The worker takes a file that nobody has touched. -/
theorem Busy.nextFile (busy : Busy tasks start thread none before) (starts : Starts tasks start)
    (workload : Workload start.system tasks) {rest : FileList} {file : FileInfo}
    (taken : getNextFile before.list = (some (index, file), rest))
    (isAfter : after = { before with list := rest, handed := before.handed ++ [(thread, index)] }) :
    Moved start.system tasks (· = thread) before after ∧
      Busy tasks start thread (some index) after ∧
      after.list.currentIndex = before.list.currentIndex + 1 ∧
      ∃ task, tasks[index]? = some task ∧ file = task.info ∧
        Spares task start.system after.system := by
  rcases getNextFile_some taken with ⟨rfl, found, rfl⟩
  subst isAfter
  have numbered := busy.numbered starts
  have moved : Moved start.system tasks (· = thread) before
      { before with
        list := { before.list with currentIndex := before.list.currentIndex + 1 }
        handed := before.handed ++ [(thread, before.list.currentIndex)] } := by
    apply Moved.same_system
    · rfl
    · rfl
    · rfl
    · exact Nat.le_succ _
    · refine ⟨_, rfl, fun entry member => ?_⟩
      rw [List.mem_singleton.mp member]
    · intro isNumbered
      refine ⟨?_, (List.getElem?_eq_some_iff.mp found).1⟩
      rw [List.map_append, isNumbered.handed, List.range_succ]
      rfl
  rw [busy.files starts, List.getElem?_map, Option.map_eq_some_iff] at found
  rcases found with ⟨task, isTask, rfl⟩
  have inList := List.mem_of_getElem? isTask
  have notHanded : ∀ other, (other, before.list.currentIndex) ∉ before.handed := by
    intro other member
    have inRange : before.list.currentIndex ∈ before.handed.map Prod.snd :=
      List.mem_map_of_mem member
    rw [numbered.handed, List.mem_range] at inRange
    exact Nat.lt_irrefl _ inRange
  refine ⟨moved, ⟨busy.since.trans (moved.mono fun _ _ => trivial), ?_, ?_⟩, rfl, task, isTask, rfl,
    busy.since.toSteady, ?_, ?_⟩
  · intro index other member different isOther
    rcases List.mem_append.mp member with old | new
    · exact busy.settled index other old (Option.some_ne_none _).symm isOther
    · cases List.mem_singleton.mp new
      exact absurd rfl different
  · intro index isCurrent
    cases isCurrent
    exact List.mem_append_right _ (List.mem_singleton.mpr rfl)
  · apply (busy.since.files task.place).resolve_right
    rintro ⟨other, otherIndex, changed, _, _, isOther, _, same⟩
    exact workload.sources task inList changed (List.mem_of_getElem? isOther) same
  · apply (busy.since.files task.target).resolve_right
    rintro ⟨other, otherIndex, changed, isHanded, _, isOther, _, same⟩
    cases workload.same_index isTask isOther same
    exact notHanded other isHanded

/-- The worker touches the target of the file that it has in hand. -/
theorem Busy.touches (busy : Busy tasks start thread (some index) before)
    (workload : Workload start.system tasks) (isTask : tasks[index]? = some task)
    {system : SysState} (touches : Touches (multiThread.Outdated start.system task) task before.system system) :
    Busy tasks start thread (some index) { before with system := system } where
  since := busy.since.trans
    ((touches.moved (busy.inHand index rfl) isTask).mono fun _ _ => trivial)
  settled := by
    intro other otherTask member different isOther
    apply (busy.settled other otherTask member different isOther).spared
    apply touches.spares
    · exact workload.sources otherTask (List.mem_of_getElem? isOther) task (List.mem_of_getElem? isTask)
    · intro same
      exact different (congrArg some (workload.same_index isOther isTask same).symm)
  inHand := busy.inHand

/-- The file that the worker had in hand is settled. -/
theorem Busy.finished (busy : Busy tasks start thread (some index) state)
    (isTask : tasks[index]? = some task) (settled : multiThread.Settled start.system task state.system) :
    Busy tasks start thread none state where
  since := busy.since
  settled := by
    intro other otherTask member _ isOther
    by_cases same : index = other
    · subst same
      rw [isTask] at isOther
      cases isOther
      exact settled
    · exact busy.settled other otherTask member (fun isSame => same (Option.some.inj isSame)) isOther
  inHand := fun _ impossible => absurd impossible (Option.not_mem_none _)

/-- A file that the worker has in hand. -/
structure InHand (tasks : List Task) (start : WorkerState Thread SysState) (thread : Thread)
    (index least : Nat) (good : SysState → Prop) (state : WorkerState Thread SysState) : Prop where
  busy : Busy tasks start thread (some index) state
  good : good state.system
  least : least ≤ state.list.currentIndex

theorem InHand.relied {least : Nat} {good : SysState → Prop}
    (inHand : InHand tasks start thread index least good before) (starts : Starts tasks start)
    (workload : Workload start.system tasks) (isTask : tasks[index]? = some task)
    (stable : ∀ state after, good state → Spares task state after → good after)
    (relied : Moved start.system tasks (· ≠ thread) before after) :
    InHand tasks start thread index least good after where
  busy := inHand.busy.relied starts workload relied
  good := stable _ _ inHand.good
    (relied.spares workload (inHand.busy.numbered starts) (inHand.busy.inHand index rfl) isTask)
  least := inHand.least.trans relied.index

/-- The critical sections of a worker that only count or record. -/
inductive Counts : WorkerCommand SysCall → Prop
  | countProcessed : Counts .countProcessed
  | callSyncFile (index : Nat) : Counts (.callSyncFile index)
  | countSynced : Counts .countSynced

/-- A step that only counts or records changes nothing that anybody relies on. -/
theorem Counts.step {command : WorkerCommand SysCall} (counts : Counts command)
    {rest : WorkerResponse SysResponse command → Worker SysResponse Unit}
    {post : Unit → WorkerState Thread SysState → Prop} {holds : WorkerState Thread SysState → Prop}
    (stays : ∀ before after, holds before → Moved start.system tasks (· ≠ thread) before after →
      holds after)
    (counted : ∀ before after, holds before → after.list = before.list →
      after.handed = before.handed → after.errors = before.errors → after.system = before.system →
      holds after)
    (here : holds state)
    (continued : ∀ response last, holds last →
      (workerConduct start.system tasks total thread).Follows (WorkerStep Answers thread) post
        (rest response) last) :
    (workerConduct start.system tasks total thread).Follows (WorkerStep Answers thread) post
      (Program.perform command >>= rest) state := by
  have same : ∀ {response : WorkerResponse SysResponse command}
      {before after : WorkerState Thread SysState},
      WorkerStep Answers thread command before response after →
      after.list = before.list ∧ after.handed = before.handed ∧ after.errors = before.errors ∧
        after.system = before.system := by
    intro response before after stepped
    cases counts with
    | countProcessed =>
        cases stepped
        exact ⟨rfl, rfl, rfl, rfl⟩
    | callSyncFile index =>
        cases stepped
        exact ⟨rfl, rfl, rfl, rfl⟩
    | countSynced =>
        cases stepped
        exact ⟨rfl, rfl, rfl, rfl⟩
  apply Conduct.Follows.call
  · intro _ between _
    cases counts with
    | countProcessed => exact ⟨_, _, .countProcessed⟩
    | callSyncFile index => exact ⟨_, _, .callSyncFile index⟩
    | countSynced => exact ⟨_, _, .countSynced⟩
  · intro between relied response after stepped
    rcases same stepped with ⟨list, handed, errors, system⟩
    exact ⟨.counted list handed errors system,
      continued response after (counted _ _ (stays _ _ here relied) list handed errors system)⟩

theorem InHand.counted {least : Nat} {good : SysState → Prop}
    (inHand : InHand tasks start thread index least good before) (list : after.list = before.list)
    (handed : after.handed = before.handed) (errors : after.errors = before.errors)
    (system : after.system = before.system) : InHand tasks start thread index least good after where
  busy := inHand.busy.counted list handed errors system
  good := by
    rw [system]
    exact inHand.good
  least := by
    rw [list]
    exact inHand.least

/-- What a worker does with a file that it was given. -/
theorem worksOff {rest : Worker SysResponse Unit} {post : Unit → WorkerState Thread SysState → Prop}
    {least : Nat} (starts : Starts tasks start) (workload : Workload start.system tasks)
    (isTask : tasks[index]? = some task) (possible : total → CanBeOpened start.system task)
    (busy : Busy tasks start thread (some index) state)
    (spared : Spares task start.system state.system) (further : least ≤ state.list.currentIndex)
    (continued : ∀ last, Busy tasks start thread none last → least ≤ last.list.currentIndex →
      (workerConduct start.system tasks total thread).Follows (WorkerStep Answers thread) post
        rest last) :
    (workerConduct start.system tasks total thread).Follows (WorkerStep Answers thread) post
      (Worker.countProcessed >>= fun _ => Worker.callSyncFile index >>= fun _ =>
        liftSystem (syncFile task.sourcePath task.targetPath false) >>= fun result =>
          if result then Worker.countSynced >>= fun _ => rest
          else Worker.countError >>= fun _ => rest) state := by
  have ready := workload.ready task (List.mem_of_getElem? isTask)
  have staysSpared : ∀ before after, InHand tasks start thread index least
      (Spares task start.system) before → Moved start.system tasks (· ≠ thread) before after →
      InHand tasks start thread index least (Spares task start.system) after :=
    fun _ _ inHand => inHand.relied starts workload isTask fun _ _ => Spares.trans
  have staysSettled : ∀ before after, InHand tasks start thread index least
      (multiThread.Settled start.system task) before → Moved start.system tasks (· ≠ thread) before after →
      InHand tasks start thread index least (multiThread.Settled start.system task) after :=
    fun _ _ inHand => inHand.relied starts workload isTask fun _ _ => Synchroniser.Settled.spared
  apply Counts.countProcessed.step staysSpared (fun _ _ => InHand.counted) ⟨busy, spared, further⟩
  intro _ state inHand
  apply (Counts.callSyncFile index).step staysSpared (fun _ _ => InHand.counted) inHand
  intro _ state inHand
  apply Conduct.Follows.bind
  have synced : (workerConduct start.system tasks total thread).Follows (WorkerStep Answers thread)
      (fun result after => (result = true ∧ multiThread.Settled start.system task after.system) ∧
        InHand tasks start thread index least (fun _ => True) after)
      (liftSystem (syncFile task.sourcePath task.targetPath false)) state := by
    have follows := syncFile_follows ready possible inHand.good
    apply liftSystem_follows _ _ _ follows ⟨inHand.busy, trivial, inHand.least⟩
    · intro before between inHand relied
      exact ⟨inHand.relied starts workload isTask (fun _ _ _ _ => trivial) relied,
        relied.spares workload (inHand.busy.numbered starts) (inHand.busy.inHand index rfl) isTask⟩
    · intro before after inHand touches
      exact ⟨touches.moved (inHand.busy.inHand index rfl) isTask,
        inHand.busy.touches workload isTask touches, trivial, inHand.least⟩
    · exact fun _ => id
  apply Program.Always.mono synced
  rintro result last ⟨⟨rfl, settled⟩, inHandLast⟩
  rw [if_pos rfl]
  apply Counts.countSynced.step staysSettled (fun _ _ => InHand.counted)
    ⟨inHandLast.busy, settled, inHandLast.least⟩
  intro _ last inHandLast
  exact continued last (inHandLast.busy.finished isTask inHandLast.good) inHandLast.least

/-- A worker settles all files that it is given, and ends when the list is worked off. -/
theorem workerThread_follows (starts : Starts tasks start) (workload : Workload start.system tasks)
    (possible : total → ∀ task ∈ tasks, CanBeOpened start.system task) :
    ∀ rounds state, tasks.length < rounds + state.list.currentIndex →
      Busy tasks start thread none state →
      (workerConduct start.system tasks total thread).Follows (WorkerStep Answers thread)
        (fun _ after => Busy tasks start thread none after ∧
          tasks.length ≤ after.list.currentIndex)
        (workerThread syncFile false rounds) state
  | 0, state, enough, busy => by
      have within := (busy.numbered starts).index_le
      rw [busy.files starts, List.length_map] at within
      omega
  | rounds + 1, state, enough, busy => by
      rw [workerThread]
      apply Conduct.Follows.call
      · intro _ between relied
        cases taken : getNextFile between.list with
        | mk file rest =>
            cases file with
            | none => exact ⟨_, _, .noFile rest taken⟩
            | some entry => exact ⟨_, _, .nextFile rest taken⟩
      intro between relied response after stepped
      have busyBetween := busy.relied starts workload relied
      cases stepped with
      | noFile rest empty =>
          rcases getNextFile_none empty with ⟨rfl, isOver⟩
          rw [busyBetween.files starts, List.length_map] at isOver
          exact ⟨.refl _ _ _ _, busyBetween, isOver⟩
      | nextFile rest taken =>
          rename_i index file
          rcases busyBetween.nextFile starts workload taken rfl with
            ⟨moved, busyAfter, further, task, isTask, rfl, spared⟩
          refine ⟨moved, ?_⟩
          have inList := List.mem_of_getElem? isTask
          have fewer := relied.index
          dsimp only [Task.info]
          rw [if_pos rfl]
          apply worksOff starts workload isTask (possible · task inList) busyAfter spared further.ge
          intro last busyLast more
          apply workerThread_follows starts workload possible rounds last _ busyLast
          omega

/-! ## All workers -/

/-- What every worker ends with. -/
def WorkedOff (tasks : List Task) (start : WorkerState Thread SysState) (thread : Thread) (_ : Unit)
    (state : WorkerState Thread SysState) : Prop :=
  Busy tasks start thread none state ∧ tasks.length ≤ state.list.currentIndex

/-- Every file is settled without an error, and nothing else happened. -/
structure AllSettled (tasks : List Task) (start state : WorkerState Thread SysState) : Prop where
  settled : ∀ task ∈ tasks, multiThread.Settled start.system task state.system
  moved : Moved start.system tasks (fun _ => True) start state

theorem workers_compatible (starts : Starts tasks start) (workload : Workload start.system tasks)
    (total : Prop) :
    Conduct.Compatible (workerConduct start.system tasks total) (WorkedOff tasks start) where
  reflexive := fun _ => .refl _ _ _
  transitive := fun _ _ _ _ => Moved.trans
  others := by
    intro thread other state after different moved
    apply Moved.mono moved
    rintro _ rfl
    exact different
  stable := fun _ _ _ _ workedOff moved =>
    ⟨workedOff.1.relied starts workload moved, workedOff.2.trans moved.index⟩

/-- Together the workers have settled everything. -/
theorem allSettled_of_workedOff [Nonempty Thread] (starts : Starts tasks start)
    (ended : ∀ thread, ∃ result, WorkedOff tasks start thread result state) :
    AllSettled tasks start state := by
  rcases ended (Classical.arbitrary Thread) with ⟨_, first, all⟩
  refine ⟨fun task member => ?_, first.since⟩
  rcases List.getElem?_of_mem member with ⟨index, isTask⟩
  have inRange : index ∈ state.handed.map Prod.snd := by
    rw [(first.numbered starts).handed, List.mem_range]
    exact Nat.lt_of_lt_of_le (List.getElem?_eq_some_iff.mp isTask).1 all
  rcases List.mem_map.mp inRange with ⟨⟨thread, _⟩, isHanded, rfl⟩
  rcases ended thread with ⟨_, mine, _⟩
  exact mine.settled _ task isHanded (Option.some_ne_none _).symm isTask

variable {list : FileList}

theorem starts_startWorkers (files : list.files = tasks.map Task.info) (index : list.currentIndex = 0) :
    Starts tasks (startWorkers Thread syncFile false list base).state :=
  ⟨files, index, rfl⟩

theorem workers_follow (total : Prop) (files : list.files = tasks.map Task.info) (index : list.currentIndex = 0)
    (workload : Workload base tasks) (possible : total → ∀ task ∈ tasks, CanBeOpened base task) :
    Conduct.PoolFollows (workerConduct base tasks total) (WorkerStep Answers)
      (WorkedOff tasks (startWorkers Thread syncFile false list base).state)
      (startWorkers Thread syncFile false list base) := by
  intro thread
  have starts : Starts tasks (startWorkers Thread syncFile false list base).state :=
    starts_startWorkers files index
  apply workerThread_follows starts workload possible _ _ _ (.refl starts thread)
  rw [files, List.length_map, starts.index]
  exact Nat.lt_succ_self _

variable [DecidableEq Thread]
  {pool : Pool Thread (WorkerCommand SysCall) (WorkerResponse SysResponse)
    (WorkerState Thread SysState) Unit}

/-- Behind every schedule all files are settled. -/
theorem workers_settle [Nonempty Thread] (files : list.files = tasks.map Task.info)
    (index : list.currentIndex = 0) (workload : Workload base tasks)
    (reached : Pool.Reachable (WorkerStep Answers)
      (startWorkers Thread syncFile false list base) pool)
    (joined : ∀ thread, pool.programs thread = .done ()) :
    AllSettled tasks (startWorkers Thread syncFile false list base).state pool.state := by
  have starts : Starts tasks (startWorkers Thread syncFile false list base).state :=
    starts_startWorkers files index
  have follows := (workers_follow False files index workload
    fun impossible => impossible.elim).reachable (workers_compatible starts workload False) reached
  exact allSettled_of_workedOff starts fun thread => ⟨(), follows.ended (joined thread)⟩

/-- Every schedule comes to its end. -/
theorem workers_return [Fintype Thread] [Nonempty Thread] (files : list.files = tasks.map Task.info)
    (index : list.currentIndex = 0) (workload : Workload base tasks)
    (possible : ∀ task ∈ tasks, CanBeOpened base task) :
    (startWorkers Thread syncFile false list base).Returns (WorkerStep Answers)
      (AllSettled tasks (startWorkers Thread syncFile false list base).state) := by
  have starts : Starts tasks (startWorkers Thread syncFile false list base).state :=
    starts_startWorkers files index
  exact (workers_follow True files index workload fun _ => possible).returns
    (workers_compatible starts workload True) (fun _ _ => trivial)
    fun _ => allSettled_of_workedOff starts

end Moved

end Apue.Sync
