import Mathlib.Data.List.Basic
import Mathlib.Data.Nat.Bitwise
import Mathlib.Tactic.Ring

/-! # Results of the child processes of the multi-process synchroniser

`perform_sync` of `Multi_process_rsync_task/sync_util.c` forks
`process_count` children, gives each a slice of the file list, and collects
their exit statuses. What the children's system calls do is an input here: how
every call of `sync_file` ends, and how every child ends.
-/

namespace Apue.Sync.MultiProcess

abbrev Path := List UInt8

/-! ## Exit statuses, as `waitpid` stores them -/

/-- A signal that ends a process. -/
structure Signal where
  number : Nat
  positive : 0 < number
  small : number < 127

/-- The status of a process that calls `exit(code)`. -/
def exitStatus (code : Nat) : Nat := (code &&& 0xff) <<< 8

def killedStatus (signal : Signal) (core : Bool) : Nat :=
  signal.number + if core then 0x80 else 0

def WIFEXITED (status : Nat) : Bool := status &&& 0x7f == 0

def WEXITSTATUS (status : Nat) : Nat := (status &&& 0xff00) >>> 8

theorem WIFEXITED_killedStatus (signal : Signal) (core : Bool) :
    WIFEXITED (killedStatus signal core) = false := by
  have masked : killedStatus signal core &&& 0x7f = signal.number := by
    rw [Nat.and_two_pow_sub_one_eq_mod _ 7]
    have := signal.small
    cases core <;> simp only [killedStatus, if_true, if_false, Bool.false_eq_true] <;> omega
  have := signal.positive
  simp only [WIFEXITED, masked, beq_eq_false_iff_ne]
  omega

/-! ## The children -/

/-- How a child ends: it handles its whole slice, it has no memory for its copy
of the slice, or a signal kills it when `calls` calls of `sync_file` have
returned. -/
inductive ChildEnd
  | exits
  | noMemory
  | killed (calls : Nat) (signal : Signal) (core : Bool)

/-- What a child meets: its end, and the result of its k-th call of `sync_file`,
as far as the call returns. -/
structure ChildRun where
  ending : ChildEnd
  result : Nat → Int

def ChildRun.returns (run : ChildRun) (k : Nat) : Bool :=
  match run.ending with
  | .exits => true
  | .noMemory => false
  | .killed calls _ _ => k < calls

/-- The files of a slice, each with the result of its call of `sync_file`;
`none` when the call did not return. `worker_process` prints the results and
does nothing else with them. -/
def workerProcess (run : ChildRun) (slice : List Path) : List (Path × Option Int) :=
  slice.mapIdx fun k path => (path, if run.returns k then some (run.result k) else none)

/-- The status of a child: it leaves its branch of `perform_sync` with
`exit(0)`, and `init_file_list` and `add_file_to_list` with `exit(1)`. -/
def ChildRun.status (run : ChildRun) : Nat :=
  match run.ending with
  | .exits => exitStatus 0
  | .noMemory => exitStatus 1
  | .killed _ signal core => killedStatus signal core

/-! ## The parent -/

structure Environment where
  sourceIsDirectory : Bool
  targetIsCreated : Bool
  pidsAllocated : Bool
  /-- Whether the i-th `fork` succeeds. -/
  fork : Nat → Bool
  child : Nat → ChildRun

/-- The slices that the children copy, `n` of them still to come and the next
one beginning at `start_index`. The last child also takes the remainder. -/
def slices (files : List Path) (filesPerProcess remainingFiles : Nat) :
    Nat → Nat → List (List Path)
  | 0, _ => []
  | n + 1, startIndex =>
      let endIndex := startIndex + filesPerProcess + if n = 0 then remainingFiles else 0
      (files.take endIndex).drop startIndex ::
        slices files filesPerProcess remainingFiles n (startIndex + filesPerProcess)

def childSlices (files : List Path) (processCount : Nat) : List (List Path) :=
  slices files (files.length / processCount) (files.length % processCount) processCount 0

/-- The loop that forks; `none` when a `fork` fails and the function returns. -/
def forkChildren (environment : Environment) : Nat → Nat → Option (List Nat)
  | 0, _ => some []
  | n + 1, i =>
      if environment.fork i then
        (forkChildren environment n (i + 1)).map ((environment.child i).status :: ·)
      else
        none

/-- The loop that waits. -/
def waitChildren (statuses : List Nat) : Int :=
  statuses.foldl (fun allSuccess status =>
    if WIFEXITED status && WEXITSTATUS status != 0 then 0 else allSuccess) 1

/-- `perform_sync` once the file list is known. -/
def performSync (files : List Path) (processCount : Nat) (environment : Environment) :
    Int :=
  if !environment.sourceIsDirectory then 0
  else if !environment.targetIsCreated then 0
  else if files.length = 0 then 1
  else if !environment.pidsAllocated then 0
  else match forkChildren environment processCount 0 with
    | none => 0
    | some statuses => waitChildren statuses

/-- The exit status of `main` after it has read its arguments. -/
def main (files : List Path) (processCount : Nat) (environment : Environment) : Int :=
  if performSync files processCount environment = 0 then 1 else 0

/-- Whether the parent gets as far as forking the i-th child. -/
def Environment.runs (environment : Environment) (i : Nat) : Bool :=
  environment.sourceIsDirectory && environment.targetIsCreated &&
    environment.pidsAllocated && (List.range (i + 1)).all environment.fork

/-- Every file of the list with the result of its call of `sync_file`. -/
def report (files : List Path) (processCount : Nat) (environment : Environment) :
    List (Path × Option Int) :=
  ((childSlices files processCount).mapIdx fun i slice =>
    if environment.runs i then workerProcess (environment.child i) slice
    else slice.map fun path => (path, none)).flatten

/-! ## Every file belongs to one child -/

theorem slices_flatten (files : List Path) (filesPerProcess remainingFiles : Nat) :
    ∀ n startIndex, files.length =
        startIndex + n * filesPerProcess + remainingFiles → 0 < n →
      (slices files filesPerProcess remainingFiles n startIndex).flatten =
        files.drop startIndex
  | 0, _, _, positive => absurd positive (Nat.lt_irrefl 0)
  | 1, startIndex, count, _ => by
      have whole : files.length ≤ startIndex + filesPerProcess + remainingFiles := by
        omega
      simp [slices, List.take_of_length_le whole]
  | n + 2, startIndex, count, _ => by
      have rest := slices_flatten files filesPerProcess remainingFiles (n + 1)
        (startIndex + filesPerProcess) (by rw [count]; ring) (by omega)
      rw [slices, List.flatten_cons, rest, if_neg (by omega), Nat.add_zero,
        List.drop_take, Nat.add_sub_cancel_left, ← List.drop_drop]
      exact List.take_append_drop _ _

theorem childSlices_flatten (files : List Path) {processCount : Nat}
    (positive : 0 < processCount) :
    (childSlices files processCount).flatten = files := by
  have count : files.length = 0 + processCount * (files.length / processCount) +
      files.length % processCount := by
    rw [Nat.zero_add, Nat.div_add_mod]
  rw [childSlices, slices_flatten files _ _ _ _ count positive, List.drop_zero]

theorem map_fst_workerProcess (run : ChildRun) (slice : List Path) :
    (workerProcess run slice).map Prod.fst = slice := by
  apply List.ext_getElem
  · simp only [workerProcess, List.length_map, List.length_mapIdx]
  · intro k _ _
    simp only [workerProcess, List.getElem_map, List.getElem_mapIdx]

/-- The report lists every file once, in the order of the list. -/
theorem report_files (files : List Path) {processCount : Nat} (environment : Environment)
    (positive : 0 < processCount) :
    (report files processCount environment).map Prod.fst = files := by
  rw [report, List.map_flatten]
  refine Eq.trans (congrArg List.flatten ?_) (childSlices_flatten files positive)
  apply List.ext_getElem
  · simp only [List.length_map, List.length_mapIdx]
  · intro i _ _
    simp only [List.getElem_map, List.getElem_mapIdx]
    split
    · exact map_fst_workerProcess _ _
    · rw [List.map_map]
      exact List.map_id _

theorem slices_length (files : List Path) (filesPerProcess remainingFiles : Nat) :
    ∀ n startIndex,
      (slices files filesPerProcess remainingFiles n startIndex).length = n
  | 0, _ => rfl
  | n + 1, startIndex => by
      rw [slices, List.length_cons, slices_length files filesPerProcess remainingFiles n]

theorem childSlices_length (files : List Path) (processCount : Nat) :
    (childSlices files processCount).length = processCount :=
  slices_length _ _ _ _ _

theorem slices_of_nil (filesPerProcess remainingFiles : Nat) :
    ∀ n startIndex slice, slice ∈ slices [] filesPerProcess remainingFiles n startIndex →
      slice = []
  | n + 1, startIndex, slice, member => by
      rw [slices, List.mem_cons] at member
      rcases member with first | later
      · rw [first, List.take_nil, List.drop_nil]
      · exact slices_of_nil filesPerProcess remainingFiles n _ slice later

/-! ## What the parent sees -/

/-- A failure that `perform_sync` notices: one of its own, or a child that runs
out of memory before it starts. -/
def FailureSeen (files : List Path) (processCount : Nat) (environment : Environment) :
    Prop :=
  environment.sourceIsDirectory = false ∨ environment.targetIsCreated = false ∨
    files ≠ [] ∧ (environment.pidsAllocated = false ∨
      ∃ i < processCount, environment.fork i = false ∨
        (environment.child i).status = exitStatus 1)

theorem failure_of_status (run : ChildRun) :
    (WIFEXITED run.status && WEXITSTATUS run.status != 0) = true ↔
      run.status = exitStatus 1 := by
  rcases run with ⟨ending, result⟩
  cases ending with
  | exits => simp only [ChildRun.status]; decide
  | noMemory => simp only [ChildRun.status]; decide
  | killed calls signal core =>
      have notExited := WIFEXITED_killedStatus signal core
      simp only [ChildRun.status, notExited, Bool.false_and, Bool.false_eq_true, false_iff]
      intro same
      rw [same] at notExited
      exact absurd notExited (by decide)

theorem waitChildren_eq (statuses : List Nat) :
    waitChildren statuses =
      if statuses.any (fun status => WIFEXITED status && WEXITSTATUS status != 0) then 0
      else 1 := by
  have general : ∀ allSuccess : Int, statuses.foldl (fun allSuccess status =>
      if WIFEXITED status && WEXITSTATUS status != 0 then 0 else allSuccess) allSuccess =
      if statuses.any (fun status => WIFEXITED status && WEXITSTATUS status != 0) then 0
      else allSuccess := by
    induction statuses with
    | nil => exact fun _ => rfl
    | cons status statuses hypothesis =>
        intro allSuccess
        rw [List.foldl_cons, hypothesis, List.any_cons]
        cases WIFEXITED status && WEXITSTATUS status != 0 with
        | true => simp only [if_true, ite_self, Bool.true_or]
        | false => simp only [Bool.false_eq_true, if_false, Bool.false_or]
  exact general 1

theorem forkChildren_eq (environment : Environment) :
    ∀ n i, forkChildren environment n i =
      if ∀ j < n, environment.fork (i + j) = true then
        some ((List.range n).map fun j => (environment.child (i + j)).status)
      else none
  | 0, _ => by simp [forkChildren]
  | n + 1, i => by
      have rest := forkChildren_eq environment n (i + 1)
      rw [forkChildren]
      by_cases first : environment.fork i = true
      · have same : (∀ j < n + 1, environment.fork (i + j) = true) ↔
            ∀ j < n, environment.fork (i + 1 + j) = true := by
          rw [Nat.forall_lt_succ_left]
          simp only [Nat.add_zero, first, true_and, Nat.add_assoc, Nat.add_comm 1]
        rw [if_pos first, rest, ite_cond_congr (propext same)]
        split
        · simp only [Option.map_some, List.range_succ_eq_map, List.map_cons, List.map_map,
            Nat.add_zero, Option.some.injEq, List.cons.injEq, true_and]
          apply List.map_congr_left
          intro j _
          simp only [Function.comp_apply, Nat.succ_eq_add_one, Nat.add_assoc, Nat.add_comm 1]
        · rfl
      · rw [if_neg first, if_neg]
        exact fun all => first (all 0 (Nat.succ_pos n))

theorem performSync_eq_zero_of_failureSeen {files : List Path} {processCount : Nat}
    {environment : Environment} (seen : FailureSeen files processCount environment) :
    performSync files processCount environment = 0 := by
  unfold performSync
  rcases seen with source | target | ⟨nonempty, seen⟩
  · rw [source]
    rfl
  · rw [target]
    simp only [Bool.not_false, if_true, ite_self]
  · split
    · rfl
    split
    · rfl
    rw [if_neg (fun empty => nonempty (List.eq_nil_of_length_eq_zero empty))]
    split
    · rfl
    rename_i allocated
    rcases seen with notAllocated | ⟨i, below, notForked | outOfMemory⟩
    · exact absurd (by rw [notAllocated]; rfl) allocated
    · rw [forkChildren_eq, if_neg]
      intro all
      have forked := all i below
      rw [Nat.zero_add, notForked] at forked
      exact Bool.noConfusion forked
    · rw [forkChildren_eq]
      by_cases all : ∀ j < processCount, environment.fork (0 + j) = true
      · rw [if_pos all]
        simp only [Nat.zero_add]
        rw [waitChildren_eq, if_pos]
        rw [List.any_eq_true]
        exact ⟨_, List.mem_map.mpr ⟨i, List.mem_range.mpr below, rfl⟩,
          (failure_of_status _).mpr outOfMemory⟩
      · rw [if_neg all]

theorem performSync_eq_one_of_not_failureSeen {files : List Path} {processCount : Nat}
    {environment : Environment} (notSeen : ¬ FailureSeen files processCount environment) :
    performSync files processCount environment = 1 := by
  simp only [FailureSeen, not_or, Bool.not_eq_false, not_and, not_exists] at notSeen
  rcases notSeen with ⟨source, target, later⟩
  simp only [performSync, source, target, Bool.not_true, Bool.false_eq_true, if_false]
  split
  · rfl
  rename_i nonempty
  rcases later (fun empty => nonempty (by rw [empty]; rfl)) with ⟨allocated, children⟩
  have forked : ∀ j < processCount, environment.fork (0 + j) = true := by
    intro j below
    rw [Nat.zero_add]
    exact (children j below).1
  simp only [allocated, Bool.not_true, Bool.false_eq_true, if_false, forkChildren_eq,
    if_pos forked]
  rw [waitChildren_eq, if_neg]
  rw [List.any_eq_true]
  rintro ⟨status, member, failed⟩
  rcases List.mem_map.mp member with ⟨i, below, rfl⟩
  rw [Nat.zero_add, failure_of_status] at failed
  exact (children i (List.mem_range.mp below)).2 failed

/-! ## What the result is worth -/

/-- `perform_sync` returns 1 only if every call that was made returned 1, and a
file whose call did not return 1 makes it return 0 and `main` return 1. -/
def Reported (files : List Path) (processCount : Nat) (environment : Environment) : Prop :=
  (performSync files processCount environment = 1 →
      ∀ entry ∈ report files processCount environment,
        ∀ result, entry.2 = some result → result = 1) ∧
    ((∃ entry ∈ report files processCount environment, entry.2 ≠ some 1) →
      performSync files processCount environment = 0 ∧
        main files processCount environment = 1)

/-- Every child makes all the calls for its slice, and they all return 1. -/
def AllSynchronised (files : List Path) (processCount : Nat) (environment : Environment) :
    Prop :=
  ∀ i slice, (childSlices files processCount)[i]? = some slice →
    ∀ k < slice.length, (environment.child i).returns k = true ∧
      (environment.child i).result k = 1

theorem mem_workerProcess {run : ChildRun} {slice : List Path}
    {entry : Path × Option Int} (member : entry ∈ workerProcess run slice) :
    ∃ k < slice.length, entry.2 = if run.returns k then some (run.result k) else none := by
  rcases List.mem_mapIdx.mp member with ⟨k, below, rfl⟩
  exact ⟨k, below, rfl⟩

theorem report_of_not_failureSeen {files : List Path} {processCount : Nat}
    {environment : Environment} (notSeen : ¬ FailureSeen files processCount environment) :
    report files processCount environment =
      ((childSlices files processCount).mapIdx fun i slice =>
        workerProcess (environment.child i) slice).flatten := by
  apply congrArg List.flatten
  apply List.ext_getElem
  · simp only [List.length_mapIdx]
  · intro i below _
    rw [List.length_mapIdx] at below
    simp only [List.getElem_mapIdx]
    split
    · rfl
    · rename_i notRun
      have empty : files = [] := by
        by_contra nonempty
        simp only [FailureSeen, not_or, Bool.not_eq_false, not_and, not_exists] at notSeen
        rcases notSeen with ⟨source, target, later⟩
        rcases later nonempty with ⟨allocated, children⟩
        apply notRun
        simp only [Environment.runs, source, target, allocated, Bool.true_and,
          List.all_eq_true, List.mem_range]
        rw [childSlices_length] at below
        exact fun j within => (children j (by omega)).1
      subst empty
      rw [slices_of_nil _ _ _ _ _ (List.getElem_mem below)]
      rfl

theorem allSynchronised_iff_report {files : List Path} {processCount : Nat}
    {environment : Environment} (notSeen : ¬ FailureSeen files processCount environment) :
    AllSynchronised files processCount environment ↔
      ∀ entry ∈ report files processCount environment, entry.2 = some 1 := by
  rw [report_of_not_failureSeen notSeen]
  constructor
  · intro all entry member
    rcases List.mem_flatten.mp member with ⟨entries, among, inside⟩
    rcases List.mem_mapIdx.mp among with ⟨i, below, rfl⟩
    rcases mem_workerProcess inside with ⟨k, within, same⟩
    rcases all i _ (List.getElem?_eq_getElem below) k within with ⟨returned, one⟩
    rw [same, if_pos returned, one]
  · intro all i slice chosen k within
    rcases List.getElem?_eq_some_iff.mp chosen with ⟨below, rfl⟩
    have entry := all _ (List.mem_flatten.mpr ⟨_, List.mem_mapIdx.mpr ⟨i, below, rfl⟩,
      List.mem_mapIdx.mpr ⟨k, within, rfl⟩⟩)
    simp only [Option.ite_none_right_eq_some, Option.some.injEq] at entry
    exact entry

/-- The result is right exactly when nothing failed or the failure is one that
`perform_sync` sees. The report is of every file of the list, once. -/
theorem reported_iff (files : List Path) (processCount : Nat) (environment : Environment)
    (positive : 0 < processCount) :
    (report files processCount environment).map Prod.fst = files ∧
      (Reported files processCount environment ↔
        AllSynchronised files processCount environment ∨
          FailureSeen files processCount environment) := by
  refine ⟨report_files files environment positive, ?_⟩
  by_cases seen : FailureSeen files processCount environment
  · have zero := performSync_eq_zero_of_failureSeen seen
    have reported : Reported files processCount environment := by
      refine ⟨fun one => ?_, fun _ => ⟨zero, ?_⟩⟩
      · rw [zero] at one
        exact absurd one (by decide)
      · rw [main, zero]
        rfl
    exact iff_of_true reported (Or.inr seen)
  · have one := performSync_eq_one_of_not_failureSeen seen
    rw [or_iff_left seen, allSynchronised_iff_report seen]
    constructor
    · intro reported entry member
      by_contra other
      have zero := (reported.2 ⟨entry, member, other⟩).1
      rw [one] at zero
      exact absurd zero (by decide)
    · intro all
      refine ⟨fun _ entry member result same => ?_, fun ⟨entry, member, other⟩ =>
        absurd (all entry member) other⟩
      rw [all entry member] at same
      exact (Option.some.inj same).symm

/-- One child with one file. -/
def oneFile (run : ChildRun) : Environment where
  sourceIsDirectory := true
  targetIsCreated := true
  pidsAllocated := true
  fork := fun _ => true
  child := fun _ => run

theorem reported_iff_one_file :
    (report [[97]] 1 (oneFile ⟨.exits, fun _ => 1⟩)).map Prod.fst = [[97]] ∧
      (Reported [[97]] 1 (oneFile ⟨.exits, fun _ => 1⟩) ↔
        AllSynchronised [[97]] 1 (oneFile ⟨.exits, fun _ => 1⟩) ∨
          FailureSeen [[97]] 1 (oneFile ⟨.exits, fun _ => 1⟩)) :=
  reported_iff [[97]] 1 (oneFile ⟨.exits, fun _ => 1⟩) (by decide)

/-- A call that returns 0, and a child that `SIGKILL` ends before its first call
returns: `perform_sync` returns 1 and `main` returns 0. -/
theorem failure_not_reported :
    (¬ Reported [[97]] 1 (oneFile ⟨.exits, fun _ => 0⟩)) ∧
      ¬ Reported [[97]] 1
        (oneFile ⟨.killed 0 ⟨9, by decide, by decide⟩ false, fun _ => 0⟩) := by
  constructor
  · intro reported
    exact absurd (reported.2 ⟨([97], some 0), by decide, by decide⟩).1 (by decide)
  · intro reported
    exact absurd (reported.2 ⟨([97], none), by decide, by decide⟩).1 (by decide)

end Apue.Sync.MultiProcess
