import Apue.Foundation.Surroundings
import Apue.Sync.MultiProcess

/-! # The children of the multi-process synchroniser

`perform_sync` of `Multi_process_rsync_task/sync_util.c` gives every child a range of
the file list, and waits for the children when it has forked them all.
-/

namespace Apue.Sync.MultiProcess

open Apue.Foundation

/-! ## The ranges of the children -/

/-- The indices from `start_index` up to `end_index`, as the i-th child computes them. -/
def childRange (processCount filesPerProcess remainingFiles i startIndex : Nat) : Nat × Nat :=
  (startIndex,
    startIndex + filesPerProcess + if i = processCount - 1 then remainingFiles else 0)

/-- The loop that forks, with `n` children to come. The parent advances `start_index`. -/
def forkRanges (processCount filesPerProcess remainingFiles : Nat) :
    Nat → Nat → Nat → List (Nat × Nat)
  | 0, _, _ => []
  | n + 1, i, startIndex =>
      childRange processCount filesPerProcess remainingFiles i startIndex ::
        forkRanges processCount filesPerProcess remainingFiles n (i + 1)
          (startIndex + filesPerProcess)

def childRanges (count processCount : Nat) : List (Nat × Nat) :=
  forkRanges processCount (count / processCount) (count % processCount) processCount 0 0

theorem forkRanges_length (processCount filesPerProcess remainingFiles n i startIndex : Nat) :
    (forkRanges processCount filesPerProcess remainingFiles n i startIndex).length = n := by
  induction n generalizing i startIndex with
  | zero => rfl
  | succ n hypothesis => rw [forkRanges, List.length_cons, hypothesis]

theorem forkRanges_getElem (processCount filesPerProcess remainingFiles : Nat) {n i startIndex k : Nat}
    (within : k < (forkRanges processCount filesPerProcess remainingFiles n i startIndex).length) :
    (forkRanges processCount filesPerProcess remainingFiles n i startIndex)[k] =
      childRange processCount filesPerProcess remainingFiles (i + k)
        (startIndex + k * filesPerProcess) := by
  induction n generalizing i startIndex k with
  | zero => cases within
  | succ n hypothesis =>
      cases k with
      | zero =>
          rw [Nat.zero_mul]
          rfl
      | succ k =>
          simp only [forkRanges, List.getElem_cons_succ]
          rw [hypothesis, Nat.add_right_comm i 1 k, Nat.add_assoc startIndex, Nat.succ_mul,
            Nat.add_comm filesPerProcess]
          rfl

theorem childRanges_length (count processCount : Nat) :
    (childRanges count processCount).length = processCount :=
  forkRanges_length _ _ _ _ _ _

theorem childRanges_getElem {count processCount i : Nat}
    (within : i < (childRanges count processCount).length) :
    (childRanges count processCount)[i] = childRange processCount (count / processCount)
      (count % processCount) i (i * (count / processCount)) := by
  have computed := forkRanges_getElem processCount (count / processCount) (count % processCount) within
  rw [Nat.zero_add, Nat.zero_add] at computed
  exact computed

/-- A range ends where a later one begins, or in front of it. -/
theorem childRange_le (processCount filesPerProcess remainingFiles : Nat) {i j : Nat} (before : i < j)
    (within : j < processCount) :
    (childRange processCount filesPerProcess remainingFiles i (i * filesPerProcess)).2 ≤
      (childRange processCount filesPerProcess remainingFiles j (j * filesPerProcess)).1 := by
  have notLast : i ≠ processCount - 1 := by omega
  have next : (i + 1) * filesPerProcess ≤ j * filesPerProcess := Nat.mul_le_mul_right _ before
  rw [Nat.succ_mul] at next
  rw [childRange, childRange, if_neg notLast]
  exact next

theorem childRange_le_count {count processCount i : Nat} (within : i < processCount) :
    (childRange processCount (count / processCount) (count % processCount) i
      (i * (count / processCount))).2 ≤ count := by
  have whole := Nat.div_add_mod count processCount
  rw [childRange]
  dsimp only
  split
  · rename_i last
    have positive : i + 1 = processCount := by omega
    have total : (i + 1) * (count / processCount) + count % processCount = count := by
      rw [positive]
      exact whole
    rw [Nat.succ_mul] at total
    omega
  · have most : (i + 1) * (count / processCount) ≤ processCount * (count / processCount) :=
      Nat.mul_le_mul_right _ within
    rw [Nat.succ_mul] at most
    omega

/-- A file belongs to the child that its index divided by the size of the ranges gives,
or to the last one. -/
theorem childRange_covers {count processCount index : Nat} (positive : 0 < processCount)
    (inside : index < count) : ∃ i < processCount,
      (childRange processCount (count / processCount) (count % processCount) i
        (i * (count / processCount))).1 ≤ index ∧
      index < (childRange processCount (count / processCount) (count % processCount) i
        (i * (count / processCount))).2 := by
  have whole := Nat.div_add_mod count processCount
  generalize count / processCount = filesPerProcess at whole ⊢
  generalize count % processCount = remainingFiles at whole ⊢
  by_cases early : index < (processCount - 1) * filesPerProcess
  · have some_ : 0 < filesPerProcess := by
      by_contra none
      rw [Nat.eq_zero_of_not_pos none, Nat.mul_zero] at early
      omega
    have early := (Nat.div_lt_iff_lt_mul some_).mpr early
    have front := Nat.div_mul_le_self index filesPerProcess
    have back := @Nat.lt_div_mul_add index filesPerProcess some_
    refine ⟨index / filesPerProcess, by omega, front, ?_⟩
    rw [childRange, if_neg (by omega)]
    exact back
  · refine ⟨processCount - 1, by omega, ?_, ?_⟩
    · exact Nat.le_of_not_lt early
    · have last : processCount - 1 + 1 = processCount := by omega
      have total : (processCount - 1 + 1) * filesPerProcess + remainingFiles = count := by
        rw [last]
        exact whole
      rw [Nat.succ_mul] at total
      rw [childRange, if_pos rfl]
      dsimp only
      omega

/-- The children share the file list among them. -/
structure Shares (count : Nat) (ranges : List (Nat × Nat)) : Prop where
  inside : ∀ range ∈ ranges, range.1 ≤ range.2 ∧ range.2 ≤ count
  apart : ranges.Pairwise fun earlier later => earlier.2 ≤ later.1
  once : ∀ index < count, ∃! i : Nat, ∃ range : Nat × Nat, ranges[i]? = some range ∧
    range.1 ≤ index ∧ index < range.2

theorem childRanges_apart (count processCount : Nat) :
    (childRanges count processCount).Pairwise fun earlier later => earlier.2 ≤ later.1 := by
  rw [List.pairwise_iff_getElem]
  intro i j within within' before
  rw [childRanges_getElem, childRanges_getElem]
  rw [childRanges_length] at within'
  exact childRange_le processCount _ _ before within'

/-- The slices of the list are cut at the ranges. -/
theorem childSlices_eq (files : List Path) (processCount : Nat) :
    childSlices files processCount =
      (childRanges files.length processCount).map fun range => (files.take range.2).drop range.1 := by
  have general : ∀ n i startIndex, i + n = processCount →
      slices files (files.length / processCount) (files.length % processCount) n startIndex =
        (forkRanges processCount (files.length / processCount) (files.length % processCount) n i
          startIndex).map fun range => (files.take range.2).drop range.1 := by
    intro n
    induction n with
    | zero => exact fun _ _ _ => rfl
    | succ n hypothesis =>
        intro i startIndex total
        rw [slices, forkRanges, List.map_cons, hypothesis (i + 1) _ (by omega), childRange]
        have last : i = processCount - 1 ↔ n = 0 := by omega
        simp only [last]
  exact general processCount 0 0 (Nat.zero_add _)

/-- Every file is copied by one child, also where there are more children than files. -/
theorem childRanges_share (files : List Path) {processCount : Nat} (positive : 0 < processCount) :
    (childRanges files.length processCount).length = processCount ∧
      childSlices files processCount = (childRanges files.length processCount).map
        (fun range => (files.take range.2).drop range.1) ∧
      Shares files.length (childRanges files.length processCount) := by
  generalize isCount : files.length = count
  have apart := childRanges_apart count processCount
  refine ⟨childRanges_length count processCount, ?_, ?_, apart, ?_⟩
  · rw [← isCount]
    exact childSlices_eq files processCount
  · intro range member
    rcases List.getElem_of_mem member with ⟨i, within, rfl⟩
    rw [childRanges_getElem]
    rw [childRanges_length] at within
    refine ⟨?_, childRange_le_count within⟩
    rw [childRange, Nat.add_assoc]
    exact Nat.le_add_right _ _
  · intro index inside
    rcases childRange_covers positive inside with ⟨i, isChild, front, back⟩
    have within : i < (childRanges count processCount).length := by
      rw [childRanges_length]
      exact isChild
    rw [← childRanges_getElem within] at front back
    refine ⟨i, ⟨_, List.getElem?_eq_getElem within, front, back⟩, ?_⟩
    rintro j ⟨range, isRange, front', back'⟩
    rcases List.getElem?_eq_some_iff.mp isRange with ⟨within', rfl⟩
    rw [List.pairwise_iff_getElem] at apart
    rcases Nat.lt_trichotomy i j with before | same | behind
    · have separate := apart i j within within' before
      omega
    · exact same.symm
    · have separate := apart j i within' within behind
      omega

theorem childRanges_share_more_children :
    (childRanges 2 3).length = 3 ∧
      childSlices [[97], [98]] 3 = (childRanges 2 3).map
        (fun range => ([[97], [98]].take range.2).drop range.1) ∧ Shares 2 (childRanges 2 3) :=
  childRanges_share [[97], [98]] (by decide)

/-! ## Waiting for the children -/

inductive ParentCall
  | fork (i : Nat)
  /-- Waits for the child whose number is `pids[i]`. -/
  | waitpid (i : Nat)

@[reducible] def ParentResponse : ParentCall → Type
  | .fork _ => Bool
  | .waitpid _ => Nat

abbrev Parent : Type → Type := Program ParentCall ParentResponse

/-- The loop that forks, with `n` children to come. It tells whether every `fork` succeeds. -/
def forkLoop : Nat → Nat → Parent Bool
  | 0, _ => return true
  | n + 1, i => do
      if ← Program.perform (ParentCall.fork i) then forkLoop n (i + 1)
      else return false

/-- The loop that waits. -/
def waitLoop : Nat → Nat → Int → Parent Int
  | 0, _, allSuccess => return allSuccess
  | n + 1, i, allSuccess => do
      let status ← Program.perform (ParentCall.waitpid i)
      waitLoop n (i + 1)
        (if WIFEXITED status && WEXITSTATUS status != 0 then 0 else allSuccess)

/-- `perform_sync` once the file list is known, call by call. -/
def parent (files : List Path) (processCount : Nat) (environment : Environment) : Parent Int :=
  if !environment.sourceIsDirectory then return 0
  else if !environment.targetIsCreated then return 0
  else if files.length = 0 then return 1
  else if !environment.pidsAllocated then return 0
  else do
    if ← forkLoop processCount 0 then waitLoop processCount 0 1
    else return 0

/-- A child writes into the target until it ends. -/
inductive Child
  | unborn
  | running
  | ended
  | waited
  deriving DecidableEq

abbrev Family : Type := Nat → Child

/-- `waitpid` returns when the child has ended. -/
def ParentStep (environment : Environment) (_ : Unit) :
    (call : ParentCall) → Family → ParentResponse call → Family → Prop
  | .fork i, before, forked, after => forked = environment.fork i ∧
      after = if forked then Function.update before i .running else before
  | .waitpid i, before, status, after => before i = .ended ∧
      status = (environment.child i).status ∧ after = Function.update before i .waited

/-- A child comes to its end. -/
def Ends (pool : Pool Unit ParentCall ParentResponse Family Int) (after : Family) : Prop :=
  ∃ i, pool.state i = .running ∧ after = Function.update pool.state i .ended

abbrev Run (environment : Environment) :
    Pool Unit ParentCall ParentResponse Family Int → Pool Unit ParentCall ParentResponse Family Int →
      Prop :=
  Pool.ReachableIn (ParentStep environment) Ends

def startFamily (files : List Path) (processCount : Nat) (environment : Environment) :
    Pool Unit ParentCall ParentResponse Family Int where
  programs := fun _ => parent files processCount environment
  state := fun _ => .unborn

/-- When `perform_sync` has returned, it has waited for every child that it has forked. -/
def WaitsForAll (files : List Path) (processCount : Nat) (environment : Environment) : Prop :=
  ∀ pool, Run environment (startFamily files processCount environment) pool →
    ∀ result, pool.programs () = .done result →
      ∀ i, pool.state i = .unborn ∨ pool.state i = .waited

/-- No `fork` fails behind one that has succeeded. -/
def ForksAllOrNone (processCount : Nat) (environment : Environment) : Prop :=
  environment.fork 0 = false ∨ ∀ i < processCount, environment.fork i = true

/-- `perform_sync` gets to its loops. -/
def Environment.Forks (environment : Environment) (files : List Path) : Prop :=
  environment.sourceIsDirectory = true ∧ environment.targetIsCreated = true ∧
    files.length ≠ 0 ∧ environment.pidsAllocated = true

section Waiting

variable {environment : Environment} {files : List Path} {processCount : Nat}

/-- So many children are forked, and so many of them are waited for. -/
structure Counts (counts : Nat × Nat) (family : Family) : Prop where
  waited : ∀ i < counts.2, family i = .waited
  alive : ∀ i < counts.1, counts.2 ≤ i → family i = .running ∨ family i = .ended
  unborn : ∀ i, counts.1 ≤ i → counts.2 ≤ i → family i = .unborn

/-- The parent only has to know how far its loops have come. -/
def familyLogic (environment : Environment) :
    LocalLogic Unit ParentCall ParentResponse Family (Nat × Nat) (Nat × Nat) where
  step := ParentStep environment
  valid := Counts
  localOf := fun _ counts => counts
  allowed := fun _ _ _ => True

theorem Counts.ends {counts : Nat × Nat} {family : Family} (valid : Counts counts family) {i : Nat}
    (running : family i = .running) : Counts counts (Function.update family i .ended) := by
  have behind : counts.2 ≤ i := by
    by_contra before
    rw [valid.waited i (by omega)] at running
    cases running
  have born : i < counts.1 := by
    by_contra later
    rw [valid.unborn i (by omega) behind] at running
    cases running
  constructor
  · intro j isWaited
    rw [Function.update_of_ne (by omega)]
    exact valid.waited j isWaited
  · intro j forked notWaited
    by_cases same : j = i
    · rw [same, Function.update_self]
      exact Or.inr rfl
    · rw [Function.update_of_ne same]
      exact valid.alive j forked notWaited
  · intro j later notWaited
    rw [Function.update_of_ne (by omega)]
    exact valid.unborn j later notWaited

theorem forkLoop_safe {n i : Nat} {Result : Type} {rest : Bool → Parent Result}
    {post : Result → Nat × Nat → Prop} (few : i + n = processCount)
    (all : (∀ j < processCount, environment.fork j = true) →
      (familyLogic environment).Safe () post (rest true) (processCount, 0))
    (fails : ∀ j < processCount, (∀ earlier < j, environment.fork earlier = true) →
      environment.fork j = false → (familyLogic environment).Safe () post (rest false) (j, 0))
    (sofar : ∀ j < i, environment.fork j = true) :
    (familyLogic environment).Safe () post (forkLoop n i >>= rest) (i, 0) := by
  induction n generalizing i with
  | zero =>
      have isAll : i = processCount := few
      subst isAll
      exact all sofar
  | succ n hypothesis =>
      rw [forkLoop, Program.bind_assoc]
      apply LocalLogic.Safe.perform trivial
      rintro counts family valid rfl forked after ⟨isForked, isAfter⟩
      subst isForked isAfter
      by_cases succeeds : environment.fork i = true
      · rw [succeeds, if_pos rfl]
        refine ⟨(i + 1, 0), ?_, fun _ different => absurd rfl different, ?_⟩
        · constructor
          · exact nofun
          · intro j isForked _
            by_cases same : j = i
            · rw [same, Function.update_self]
              exact Or.inl rfl
            · rw [Function.update_of_ne same]
              exact valid.alive j (by change j < i + 1 at isForked; change j < i; omega) (Nat.zero_le j)
          · intro j later _
            change i + 1 ≤ j at later
            rw [Function.update_of_ne (by omega)]
            exact valid.unborn j (Nat.le_of_succ_le later) (Nat.zero_le j)
        · apply hypothesis (by omega)
          intro j before
          rcases Nat.lt_succ_iff_lt_or_eq.mp before with earlier | rfl
          · exact sofar j earlier
          · exact succeeds
      · rw [if_neg succeeds]
        rw [Bool.not_eq_true] at succeeds
        refine ⟨(i, 0), valid, fun _ different => absurd rfl different, ?_⟩
        rw [succeeds]
        exact fails i (by omega) sofar succeeds

theorem waitLoop_safe {n i : Nat} {allSuccess : Int} (few : i + n = processCount) :
    (familyLogic environment).Safe () (fun _ counts => counts = (processCount, processCount))
      (waitLoop n i allSuccess) (processCount, i) := by
  induction n generalizing i allSuccess with
  | zero =>
      have isAll : i = processCount := few
      subst isAll
      exact rfl
  | succ n hypothesis =>
      rw [waitLoop]
      apply LocalLogic.Safe.perform trivial
      rintro counts family valid rfl status after ⟨_, _, rfl⟩
      refine ⟨(processCount, i + 1), ?_, fun _ different => absurd rfl different, ?_⟩
      · constructor
        · intro j isWaited
          by_cases same : j = i
          · rw [same, Function.update_self]
          · rw [Function.update_of_ne same]
            exact valid.waited j (by change j < i + 1 at isWaited; change j < i; omega)
        · intro j isForked notWaited
          change i + 1 ≤ j at notWaited
          rw [Function.update_of_ne (by omega)]
          exact valid.alive j isForked (Nat.le_of_succ_le notWaited)
        · intro j later notWaited
          change i + 1 ≤ j at notWaited
          rw [Function.update_of_ne (by omega)]
          exact valid.unborn j later (Nat.le_of_succ_le notWaited)
      · exact hypothesis (by omega)

theorem parent_safe (forks : environment.Forks files → ForksAllOrNone processCount environment) :
    (familyLogic environment).Safe () (fun _ counts => counts.1 = counts.2)
      (parent files processCount environment) (0, 0) := by
  rw [parent]
  split
  · exact rfl
  rename_i isDirectory
  split
  · exact rfl
  rename_i isCreated
  split
  · exact rfl
  rename_i someFiles
  split
  · exact rfl
  rename_i isAllocated
  rw [Bool.not_eq_true, Bool.not_eq_false'] at isDirectory isCreated isAllocated
  have allOrNone := forks ⟨isDirectory, isCreated, someFiles, isAllocated⟩
  apply forkLoop_safe (Nat.zero_add processCount)
  · intro _
    apply (waitLoop_safe (Nat.zero_add processCount)).mono
    intro result counts allWaited
    rw [allWaited]
  · intro j within earlier fails
    rcases allOrNone with none | all
    · cases j with
      | zero => exact rfl
      | succ j =>
          rw [earlier 0 (Nat.succ_pos j)] at none
          cases none
    · rw [all j within] at fails
      cases fails
  · exact nofun

/-- The parent forks until it fails for the first time, and the children go on. -/
theorem forkLoop_fails {n i k : Nat} {rest : Bool → Parent Int}
    {pool : Pool Unit ParentCall ParentResponse Family Int}
    (waiting : pool.programs () = forkLoop n i >>= rest) (within : k < n)
    (forked : ∀ j < k, environment.fork (i + j) = true) (fails : environment.fork (i + k) = false) :
    ∃ pool', Run environment pool pool' ∧ pool'.programs () = rest false ∧
      (∀ j, pool.state j = .running → pool'.state j = .running) ∧
      (0 < k → pool'.state i = .running) := by
  induction k generalizing n i pool with
  | zero =>
      cases n with
      | zero => cases within
      | succ n =>
          have stepped : ParentStep environment () (.fork i) pool.state false pool.state :=
            ⟨fails.symm, rfl⟩
          have taken := Pool.Step.take () waiting stepped
          exact ⟨⟨_, pool.state⟩, .single (.thread taken), Function.update_self () _ pool.programs,
            fun _ => id, nofun⟩
  | succ k hypothesis =>
      cases n with
      | zero => cases within
      | succ n =>
          have stepped : ParentStep environment () (.fork i) pool.state true
              (Function.update pool.state i .running) := ⟨(forked 0 (Nat.succ_pos k)).symm, rfl⟩
          have taken := Pool.Step.take () waiting stepped
          have next : Function.update pool.programs () (forkLoop n (i + 1) >>= rest) () =
              forkLoop n (i + 1) >>= rest := Function.update_self () _ pool.programs
          have continued := @hypothesis n (i + 1) ⟨Function.update pool.programs () (forkLoop n (i + 1) >>= rest),
              Function.update pool.state i .running⟩ next
            (Nat.lt_of_succ_lt_succ within)
            (fun j before => by
              rw [Nat.add_assoc, Nat.add_comm 1]
              exact forked (j + 1) (Nat.succ_lt_succ before))
            (by rwa [Nat.add_assoc, Nat.add_comm 1])
          rcases continued with ⟨last, reached, isRest, keeps, _⟩
          refine ⟨last, .head (.thread taken) reached, isRest, ?_, ?_⟩
          · intro j running
            apply keeps
            by_cases same : j = i
            · rw [same]
              exact Function.update_self _ _ _
            · exact (Function.update_of_ne same _ _).trans running
          · intro _
            exact keeps i (Function.update_self _ _ _)

theorem not_waitsForAll (forks : environment.Forks files)
    (some_ : ¬ ForksAllOrNone processCount environment) :
    ¬ WaitsForAll files processCount environment := by
  intro waits
  rw [ForksAllOrNone, not_or, Bool.not_eq_false] at some_
  simp only [not_forall] at some_
  rcases some_ with ⟨first, i, within, fails⟩
  rw [Bool.not_eq_true] at fails
  have exists_ : ∃ k, environment.fork k = false := ⟨i, fails⟩
  have least := Nat.find_spec exists_
  have few := Nat.find_min' exists_ fails
  have before : ∀ j < Nat.find exists_, environment.fork j = true := fun j earlier =>
    Bool.not_eq_false _ ▸ Nat.find_min exists_ earlier
  have isLater : 0 < Nat.find exists_ := by
    rw [Nat.pos_iff_ne_zero]
    intro isFirst
    rw [isFirst, first] at least
    cases least
  generalize Nat.find exists_ = k at least few before isLater
  rcases forks with ⟨isDirectory, isCreated, someFiles, isAllocated⟩
  have waiting : (startFamily files processCount environment).programs () =
      forkLoop processCount 0 >>= fun forked =>
        if forked then waitLoop processCount 0 1 else return 0 := by
    change parent files processCount environment = _
    rw [parent, isDirectory, isCreated, isAllocated, if_neg nofun, if_neg nofun,
      if_neg someFiles, if_neg nofun]
  rcases forkLoop_fails waiting (Nat.lt_of_le_of_lt few within)
    (fun j earlier => by rw [Nat.zero_add]; exact before j earlier)
    (by rwa [Nat.zero_add]) with ⟨pool, reached, returned, _, running⟩
  rcases waits pool reached 0 returned 0 with unborn | waited
  · rw [running isLater] at unborn
    cases unborn
  · rw [running isLater] at waited
    cases waited

/-- The parent waits for its children exactly when no `fork` fails behind one that has
succeeded. -/
theorem waitsForAll_iff (files : List Path) (processCount : Nat) (environment : Environment) :
    WaitsForAll files processCount environment ↔
      (environment.Forks files → ForksAllOrNone processCount environment) := by
  constructor
  · intro waits forks
    by_contra some_
    exact not_waitsForAll forks some_ waits
  · intro condition pool reached result returned i
    have start : (familyLogic environment).PoolSafe (fun _ _ counts => counts.1 = counts.2)
        (startFamily files processCount environment) :=
      ⟨(0, 0), ⟨nofun, nofun, fun _ _ _ => rfl⟩, fun _ => parent_safe condition⟩
    have tolerates : (familyLogic environment).Tolerates
        (fun _ (_ : Int) counts => counts.1 = counts.2) Ends := by
      rintro pool _ counts valid _ ⟨i, running, rfl⟩
      exact valid.ends running
    rcases start.reachableIn tolerates reached with ⟨counts, valid, safe⟩
    have same := safe ()
    rw [returned] at same
    change counts.1 = counts.2 at same
    by_cases isWaited : i < counts.2
    · exact Or.inr (valid.waited i isWaited)
    · exact Or.inl (valid.unborn i (by omega) (by omega))

/-- What the calls of the parent return. -/
def Environment.answer (environment : Environment) : (call : ParentCall) → ParentResponse call
  | .fork i => environment.fork i
  | .waitpid i => (environment.child i).status

theorem forkLoop_answered (environment : Environment) (n i : Nat) :
    (forkLoop n i).answered environment.answer = (forkChildren environment n i).isSome := by
  induction n generalizing i with
  | zero => rfl
  | succ n hypothesis =>
      rw [forkLoop, Program.answered_bind, forkChildren]
      change (if environment.fork i then forkLoop n (i + 1) else return false).answered _ = _
      split
      · rw [hypothesis, Option.isSome_map]
      · rfl

theorem waitLoop_answered {environment : Environment} {n i : Nat} {allSuccess : Int}
    {statuses : List Nat} (forked : forkChildren environment n i = some statuses) :
    (waitLoop n i allSuccess).answered environment.answer =
      statuses.foldl (fun allSuccess status =>
        if WIFEXITED status && WEXITSTATUS status != 0 then 0 else allSuccess) allSuccess := by
  induction n generalizing i allSuccess statuses with
  | zero =>
      cases forked
      rfl
  | succ n hypothesis =>
      rw [forkChildren] at forked
      split at forked
      · rcases Option.map_eq_some_iff.mp forked with ⟨rest, forkedRest, rfl⟩
        exact hypothesis forkedRest
      · cases forked

/-- The run of the parent returns what `performSync` computes. -/
theorem parent_result {pool : Pool Unit ParentCall ParentResponse Family Int} {result : Int}
    (reached : Run environment (startFamily files processCount environment) pool)
    (returned : pool.programs () = .done result) :
    result = performSync files processCount environment := by
  have known : ∀ thread call family response after,
      ParentStep environment thread call family response after →
        response = environment.answer call := by
    intro _ call family response after stepped
    cases call with
    | fork i => exact stepped.1
    | waitpid i => exact stepped.2.1
  have same := reached.answered known ()
  rw [returned] at same
  change result = (parent files processCount environment).answered environment.answer at same
  rw [same, parent, performSync]
  split
  · rfl
  split
  · rfl
  split
  · rfl
  split
  · rfl
  rw [Program.answered_bind, forkLoop_answered]
  cases forked : forkChildren environment processCount 0 with
  | none => rfl
  | some statuses => exact waitLoop_answered forked

end Waiting

/-- The second of two forks fails. -/
theorem first_child_left : ¬ WaitsForAll [[97], [98]] 2
    { oneFile ⟨.exits, fun _ => 1⟩ with fork := fun i => i == 0 } := by
  have forks : Environment.Forks
      { oneFile ⟨.exits, fun _ => 1⟩ with fork := fun i => i == 0 } [[97], [98]] :=
    ⟨rfl, rfl, Nat.succ_ne_zero 1, rfl⟩
  apply not_waitsForAll forks
  intro allOrNone
  rcases allOrNone with none | all
  · cases none
  · exact absurd (all 1 (by decide)) (by decide)

end Apue.Sync.MultiProcess
