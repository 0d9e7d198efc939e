import Apue.Library.Popen

/-! # The children of `popen`

What the standard descriptors of a command refer to when the child executes it, and what the
child has left of the streams that its parent has open.
-/

namespace Apue.Library.Popen

open Apue.Foundation

/-- The descriptor that the child moves its end of the pipe to. -/
def standard (type : List Char) : Nat := if type = ['r'] then STDOUT_FILENO else STDIN_FILENO

/-- The end of the new pipe that is meant for the child. -/
def childEnd (process : Process) (type : List Char) : File :=
  if type = ['r'] then .writeEnd process.pipes else .readEnd process.pipes

/-- `process` is the parent when it calls `fork`, and `table` belongs to the child when it calls
`execl`. -/
structure ChildReady (process : Process) (type : List Char) (table : Table) : Prop where
  standard : table (standard type) = some (childEnd process type)
  others : ∀ fd other stream, process.streams other = some stream → ¬Refers table fd stream.pipe

section Child

variable {process : Process}

theorem redirect_standard {table : Table} {unused used : Nat} (different : used ≠ unused)
    (standard : Nat) : redirect table unused used standard standard = table used := by
  rw [redirect]
  by_cases moves : used ≠ standard
  · rw [if_pos moves, close_of_ne (Ne.symm moves), dup2, Function.update_self, close_of_ne different]
  · rw [if_neg moves, ← not_not.mp moves, close_of_ne different]

/-- On other descriptors nothing appears. -/
theorem redirect_other {table : Table} {unused used standard fd : Nat} (different : fd ≠ standard)
    (isOpen : redirect table unused used standard fd ≠ none) :
    redirect table unused used standard fd = table fd := by
  rw [redirect] at isOpen ⊢
  have notUnused : ∀ changed : Table, Popen.close table unused fd ≠ none → fd ≠ unused := by
    rintro _ stillOpen rfl
    exact stillOpen (close_self table fd)
  by_cases moves : used ≠ standard
  · rw [if_pos moves] at isOpen ⊢
    have notUsed : fd ≠ used := by
      rintro rfl
      exact isOpen (close_self _ fd)
    rw [close_of_ne notUsed, dup2, Function.update_of_ne different] at isOpen ⊢
    exact close_of_ne (notUnused table isOpen)
  · rw [if_neg moves] at isOpen ⊢
    exact close_of_ne (notUnused table isOpen)

/-- The loop of the child closes the descriptors of all streams. -/
theorem closeRecorded_eq (coherent : Coherent process) {childpid : List Nat}
    (isArray : process.childpid = some childpid) (table : Table) :
    ∀ count ≤ process.maxfd, (List.range count).foldlM (fun table i => do
      let pid ← childpid[i]?
      return if pid > 0 then close table i else table) table =
        some fun fd => if fd < count ∧ process.streams fd ≠ none then none else table fd
  | 0, _ => by
      have isSame : (fun fd => if fd < 0 ∧ process.streams fd ≠ none then none else table fd) = table := by
        funext fd
        exact if_neg fun both => Nat.not_lt_zero fd both.1
      rw [List.range_zero, List.foldlM_nil, isSame]
      rfl
  | count + 1, inside => by
      have before := closeRecorded_eq coherent isArray table count (Nat.le_of_succ_le inside)
      rw [List.range_succ, List.foldlM_append, before, Option.bind_eq_bind, Option.bind_some,
        List.foldlM_cons, coherent.recorded.entry childpid isArray count inside]
      simp only [Option.bind_eq_bind, Option.bind_some, List.foldlM_nil, Option.pure_def]
      congr 1
      funext fd
      by_cases here : fd = count
      · subst here
        rw [Process.childAt]
        cases isStream : process.streams fd with
        | none =>
            rw [if_neg (Nat.lt_irrefl 0), if_neg fun both => Nat.lt_irrefl fd both.1,
              if_neg fun both => both.2 rfl]
        | some stream =>
            rw [if_pos (coherent.positive fd stream isStream), close_self,
              if_pos ⟨Nat.lt_succ_self fd, Option.some_ne_none _⟩]
      · have same : (if process.childAt count > 0 then
            close (fun fd => if fd < count ∧ process.streams fd ≠ none then none else table fd) count
          else fun fd => if fd < count ∧ process.streams fd ≠ none then none else table fd) fd =
            if fd < count ∧ process.streams fd ≠ none then none else table fd := by
          split
          · exact close_of_ne here
          · rfl
        have sameBound : fd < count + 1 ↔ fd < count := by omega
        rw [same]
        simp only [sameBound]

theorem popenChild_eq (coherent : Coherent process) {childpid : List Nat}
    (isArray : process.childpid = some childpid) (type : List Char) (pfd : Nat × Nat) :
    popenChild process type pfd = some fun fd => if process.streams fd ≠ none then none
      else redirect process.table (parentEnds type pfd).2 (parentEnds type pfd).1 (standard type) fd := by
  have isRedirected : (if type = ['r'] then redirect process.table pfd.1 pfd.2 STDOUT_FILENO
      else redirect process.table pfd.2 pfd.1 STDIN_FILENO) =
      redirect process.table (parentEnds type pfd).2 (parentEnds type pfd).1 (standard type) := by
    rw [parentEnds, standard]
    split <;> rfl
  rw [popenChild, isRedirected, isArray, Option.bind_eq_bind, Option.bind_some,
    closeRecorded_eq coherent isArray _ process.maxfd (Nat.le_refl _)]
  congr 1
  funext fd
  have inside : fd < process.maxfd ∧ process.streams fd ≠ none ↔ process.streams fd ≠ none :=
    ⟨And.right, fun isStream => ⟨coherent.recorded.inside fd isStream, isStream⟩⟩
  simp only [inside]

/-- The child has its end of the new pipe unless a stream of the parent is in its place, and nothing
of the other streams. -/
theorem Prepared.ready_iff {before : Process} {pfd : Nat × Nat}
    (prepared : Prepared before pfd process) (type : List Char) :
    ∃ table, popenChild process type pfd = some table ∧
      (ChildReady process type table ↔ before.streams (standard type) = none) := by
  rcases prepared.allocated with ⟨childpid, isArray⟩
  have coherent := prepared.coherent
  have ends := prepared.ends type
  refine ⟨_, popenChild_eq coherent isArray type pfd, ?_⟩
  rw [← prepared.streams]
  constructor
  · intro ready
    by_contra isStream
    have isEnd := ready.standard
    rw [if_pos isStream] at isEnd
    cases isEnd
  · intro isFree
    have isUsed : redirect process.table (parentEnds type pfd).2 (parentEnds type pfd).1
        (standard type) (standard type) = some (childEnd process type) := by
      rw [redirect_standard ends.different.symm, parentEnds, childEnd]
      split
      · exact prepared.second
      · exact prepared.first
    constructor
    · rw [if_neg fun isStream => isStream isFree]
      exact isUsed
    · intro fd other stream isStream refers
      have noStream : process.streams fd = none := by
        by_contra hasStream
        apply refers.open
        exact if_pos hasStream
      have refersThere : Refers (redirect process.table (parentEnds type pfd).2
          (parentEnds type pfd).1 (standard type)) fd stream.pipe :=
        (Refers.congr (if_neg fun hasStream => hasStream noStream)).mp refers
      -- The pipe of another stream is not the new one.
      have older : stream.pipe ≠ process.pipes := by
        intro isNew
        have onEnds := ends.newest other (isNew ▸ coherent.refers other stream isStream)
        rcases onEnds with rfl | rfl
        · rw [ends.idle.1] at isStream
          cases isStream
        · rw [ends.idle.2] at isStream
          cases isStream
      by_cases isStandard : fd = standard type
      · rw [isStandard, Refers, isUsed, childEnd] at refersThere
        split at refersThere
        · rcases refersThere with isRead | isWrite
          · cases isRead
          · exact older (File.writeEnd.inj (Option.some.inj isWrite)).symm
        · rcases refersThere with isRead | isWrite
          · exact older (File.readEnd.inj (Option.some.inj isRead)).symm
          · cases isWrite
      · have inParent := (Refers.congr (redirect_other isStandard refersThere.open)).mp refersThere
        rw [coherent.sole other stream fd isStream inParent, isStream] at noStream
        cases noStream

end Child

/-- Whatever was called before, the child of `popen` has its end of the new pipe exactly where no
open stream of the parent is on the standard descriptor. -/
theorem childReady_iff {openMax : Nat} {opened : Nat → Option Nat} {unwaited : Finset Nat}
    {actions : List Action}
    (granted : EveryStep (step openMax) Granted (.initial opened unwaited) actions) :
    ∃ process, actions.foldlM (step openMax) (.initial opened unwaited) = some process ∧
      ∀ type results, Plausible process results → ∀ prepared pfd,
        beforeFork openMax process type results = (prepared, .ok pfd) →
          ∃ table, popenChild prepared type pfd = some table ∧
            (ChildReady prepared type table ↔ process.streams (standard type) = none) := by
  rcases coherent_of_history granted with ⟨process, ran, coherent⟩
  refine ⟨process, ran, fun type results possible prepared pfd isReached => ?_⟩
  rcases beforeFork_spec coherent possible openMax type with
    ⟨failed, failure, isFailed, _⟩ | ⟨other, otherPfd, isPrepared, here, _⟩
  · rw [isReached] at isFailed
    cases isFailed
  · rw [isReached] at isPrepared
    cases isPrepared
    exact here.ready_iff type

/-- Descriptors 0 and 2 are open. -/
def outputClosed (fd : Nat) : Option Nat := if fd = 0 ∨ fd = 2 then some fd else none

theorem possible_output (fdopen : Bool) :
    Plausible (.initial outputClosed ∅) ⟨true, some (1, 3), some 100, fdopen⟩ := by
  refine possible_alone (by decide) rfl rfl ?_ ?_ true fdopen
  · intro pid isPid
    cases isPid
    decide
  · exact fun pid _ => Finset.notMem_empty pid

/-- The first stream of a process without a standard output. -/
theorem childReady_iff_output :
    ∃ process, [.popen ['r'] ⟨true, some (1, 3), some 100, true⟩].foldlM (step 16)
        (.initial outputClosed ∅) = some process ∧
      ∀ type results, Plausible process results → ∀ prepared pfd,
        beforeFork 16 process type results = (prepared, .ok pfd) →
          ∃ table, popenChild prepared type pfd = some table ∧
            (ChildReady prepared type table ↔ process.streams (standard type) = none) := by
  apply childReady_iff
  exact ⟨possible_output true, fun _ _ => trivial⟩

/-- The second stream of that process: the first one is on descriptor 1, which the child closes. -/
theorem child_without_output : EveryStep (step 16) Granted (.initial outputClosed ∅)
      [.popen ['r'] ⟨true, some (1, 3), some 100, true⟩] ∧
    ∃ process, [.popen ['r'] ⟨true, some (1, 3), some 100, true⟩].foldlM (step 16)
        (.initial outputClosed ∅) = some process ∧
      Plausible process ⟨true, some (3, 4), some 101, true⟩ ∧
      ∃ prepared table,
        beforeFork 16 process ['r'] ⟨true, some (3, 4), some 101, true⟩ = (prepared, .ok (3, 4)) ∧
        popenChild prepared ['r'] (3, 4) = some table ∧ ¬ChildReady prepared ['r'] table := by
  refine ⟨⟨possible_output true, fun _ _ => trivial⟩, _, rfl, ?_, _, _, rfl, rfl, fun ready => ?_⟩
  · refine possible_alone (by decide) rfl rfl ?_ ?_ true true
    · intro pid isPid
      cases isPid
      decide
    · intro pid isPid
      cases isPid
      decide
  · have isEnd := ready.standard
    revert isEnd
    decide

end Apue.Library.Popen
