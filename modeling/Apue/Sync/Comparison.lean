import Apue.Foundation.RelyGuarantee
import Apue.Sync.SimpleRsync

/-! # What the comparisons compute

`compare_files` and `files_are_identical` among other threads that leave the two
files alone.
-/

namespace Apue.Sync

open Apue.Foundation

/-- What can be read of a node. -/
def nodeData : Node → Bytes
  | .directory _ _ => []
  | .regular file => file.data

def nodeFile : Node → Option RegularFile
  | .directory _ _ => none
  | .regular file => some file

/-- What `compare_files` returns for a file and what the other path leads to. -/
def identical (file : RegularFile) (node : Node) : Bool :=
  (nodeStat (.regular file)).size = (nodeStat node).size ∧
    ((nodeStat (.regular file)).mtime = (nodeStat node).mtime ∨
      (nodeStat (.regular file)).size < 1024 * 1024 ∧ file.data = nodeData node)

/-- What `compare_files` returns, depending on what the second path leads to. -/
def comparison (file : RegularFile) : Option (Place × Node) → Bool
  | none => false
  | some found => identical file found.2

namespace SimpleRsync

/-- What `files_are_identical` returns. A directory cannot be read. -/
def identical (file : RegularFile) (node : Node) : Bool :=
  (nodeStat (.regular file)).size = (nodeStat node).size ∧
    ((nodeStat (.regular file)).mtime = (nodeStat node).mtime ∨
      ∃ copy ∈ nodeFile node, file.data = copy.data)

/-- What `sync_file` finds out about the second path. -/
def comparison (file : RegularFile) : Option (Place × Node) → Bool
  | none => false
  | some found => SimpleRsync.identical file found.2

end SimpleRsync

section Calls

variable {state after : SysState} {path : Bytes} {descriptor : Descriptor} {offset count : Nat}

theorem answers_stat {response : Option Stat}
    (answered : Answers (.stat path) state response after) :
    response = state.statOf path ∧ after = state := by
  cases answered
  exact ⟨rfl, rfl⟩

theorem answers_access {response : Bool}
    (answered : Answers (.access path) state response after) :
    response = (state.lookup path).isSome ∧ after = state := by
  cases answered
  exact ⟨rfl, rfl⟩

theorem answers_fread {response : Bytes}
    (answered : Answers (.fread descriptor offset count) state response after) :
    response = (((state.dataOf descriptor).getD []).drop offset).take count ∧ after = state := by
  cases answered
  exact ⟨rfl, rfl⟩

theorem answers_read {response : Option Bytes}
    (answered : Answers (.read descriptor offset count) state response after) :
    response = (state.dataOf descriptor).map (fun data => (data.drop offset).take count) ∧
      after = state := by
  cases answered with
  | read found =>
      rw [found]
      exact ⟨rfl, rfl⟩
  | readNothing directory =>
      rw [directory]
      exact ⟨rfl, rfl⟩

theorem exists_read (descriptor : Descriptor) (offset count : Nat) (state : SysState) :
    Answers (.read descriptor offset count) state
      ((state.dataOf descriptor).map fun data => (data.drop offset).take count) state := by
  cases found : state.dataOf descriptor with
  | none => exact .readNothing found
  | some data => exact .read found

theorem answers_close {response : Unit}
    (answered : Answers (.close descriptor) state response after) :
    response = () ∧ after = state := by
  cases answered
  exact ⟨rfl, rfl⟩

theorem answers_openRead {place : Place} {node : Node} {response : Option Descriptor}
    (found : state.lookup path = some (place, node))
    (answered : Answers (.openRead path) state response after) :
    ∃ number, response = some ⟨number, place, (nodeStat node).size.toNat⟩ ∧ after = state := by
  cases answered with
  | openRead number there =>
      rw [found] at there
      cases there
      exact ⟨number, rfl, rfl⟩
  | openMissing missing =>
      rw [found] at missing
      cases missing

theorem statOf_of_lookup {place : Place} {node : Node}
    (found : state.lookup path = some (place, node)) : state.statOf path = some (nodeStat node) := by
  rw [SysState.statOf, found]
  rfl

theorem dataOf_of_lookup {place : Place} {node : Node} {number length : Nat}
    (found : state.lookup path = some (place, node)) :
    (state.dataOf ⟨number, place, length⟩).getD [] = nodeData node := by
  rw [SysState.dataOf, (Files.lookup_eq_some.mp found).2]
  cases node with
  | directory size mtime => rfl
  | regular file => rfl

end Calls

section Conduct

variable {conduct : Conduct SysCall SysState} {holds : SysState → Prop} {state : SysState}
  {Value : Type} {post : Value → SysState → Prop}

/-- What a program may take for granted of the two paths of a file. -/
structure Looks (conduct : Conduct SysCall SysState) (holds : SysState → Prop) : Prop where
  stable : ∀ before between, conduct.rely before between → holds before → holds between
  quiet : ∀ state, conduct.guarantee state state

/-! ## One call -/

/-- A program that runs alone finds the state as it left it. -/
theorem Looks.alone {guarantee : SysState → SysState → Prop} {answered : SysCall → Prop}
    (quiet : ∀ state, guarantee state state) (state : SysState) :
    Looks ⟨Eq, guarantee, answered⟩ fun other => other = state where
  stable := fun _ _ same isState => same.symm.trans isState
  quiet := quiet

theorem Looks.stat (looks : Looks conduct holds) {path : Bytes} {found : Option Stat}
    {rest : Option Stat → Sys Value} (sees : ∀ state, holds state → state.statOf path = found)
    (here : holds state)
    (continued : ∀ state, holds state → conduct.Follows Answers post (rest found) state) :
    conduct.Follows Answers post (Sys.stat path >>= rest) state := by
  apply Conduct.Follows.look looks.stable looks.quiet _ here continued
  intro between holdsBetween
  rw [← sees between holdsBetween]
  exact ⟨.stat path between, fun _ _ answered => answers_stat answered⟩

theorem Looks.access (looks : Looks conduct holds) {path : Bytes} {there : Bool}
    {rest : Bool → Sys Value} (sees : ∀ state, holds state → (state.lookup path).isSome = there)
    (here : holds state)
    (continued : ∀ state, holds state → conduct.Follows Answers post (rest there) state) :
    conduct.Follows Answers post (Sys.access path >>= rest) state := by
  apply Conduct.Follows.look looks.stable looks.quiet _ here continued
  intro between holdsBetween
  rw [← sees between holdsBetween]
  exact ⟨.access path between, fun _ _ answered => answers_access answered⟩

theorem Looks.fread (looks : Looks conduct holds) {descriptor : Descriptor} {offset count : Nat}
    {data : Bytes} {rest : Bytes → Sys Value}
    (sees : ∀ state, holds state → (state.dataOf descriptor).getD [] = data) (here : holds state)
    (continued : ∀ state, holds state →
      conduct.Follows Answers post (rest ((data.drop offset).take count)) state) :
    conduct.Follows Answers post (Sys.fread descriptor offset count >>= rest) state := by
  apply Conduct.Follows.look looks.stable looks.quiet _ here continued
  intro between holdsBetween
  rw [← sees between holdsBetween]
  exact ⟨.fread descriptor offset count between, fun _ _ answered => answers_fread answered⟩

theorem Looks.read (looks : Looks conduct holds) {descriptor : Descriptor} {offset count : Nat}
    {data : Option Bytes} {rest : Option Bytes → Sys Value}
    (sees : ∀ state, holds state → state.dataOf descriptor = data) (here : holds state)
    (continued : ∀ state, holds state → conduct.Follows Answers post
      (rest (data.map fun data => (data.drop offset).take count)) state) :
    conduct.Follows Answers post (Sys.read descriptor offset count >>= rest) state := by
  apply Conduct.Follows.look looks.stable looks.quiet _ here continued
  intro between holdsBetween
  rw [← sees between holdsBetween]
  exact ⟨exists_read descriptor offset count between, fun _ _ answered => answers_read answered⟩

theorem Looks.close (looks : Looks conduct holds) {descriptor : Descriptor}
    {rest : Unit → Sys Value} (here : holds state)
    (continued : ∀ state, holds state → conduct.Follows Answers post (rest ()) state) :
    conduct.Follows Answers post (Sys.close descriptor >>= rest) state := by
  apply Conduct.Follows.look looks.stable looks.quiet _ here continued
  intro between holdsBetween
  exact ⟨.close descriptor between, fun _ _ answered => answers_close answered⟩

theorem Looks.fstat (looks : Looks conduct holds) {descriptor : Descriptor} {node : Node}
    {rest : Option Stat → Sys Value}
    (sees : ∀ state, holds state → state.files descriptor.place = some node) (here : holds state)
    (continued : ∀ state, holds state →
      conduct.Follows Answers post (rest (some (nodeStat node))) state) :
    conduct.Follows Answers post (Sys.fstat descriptor >>= rest) state := by
  apply Conduct.Follows.look looks.stable looks.quiet _ here continued
  intro between holdsBetween
  have found := sees between holdsBetween
  refine ⟨.fstat found, fun response after answered => ?_⟩
  cases answered with
  | fstat isThere =>
      rw [found] at isThere
      cases isThere
      exact ⟨rfl, rfl⟩

theorem Looks.openRead (looks : Looks conduct holds) {path : Bytes} {place : Place} {node : Node}
    {rest : Option Descriptor → Sys Value}
    (sees : ∀ state, holds state → state.lookup path = some (place, node)) (here : holds state)
    (continued : ∀ number state, holds state → conduct.Follows Answers post
      (rest (some ⟨number, place, (nodeStat node).size.toNat⟩)) state) :
    conduct.Follows Answers post (Sys.openRead path >>= rest) state := by
  apply Conduct.Follows.call
  · intro _ between relied
    exact ⟨_, between, .openRead 0 (sees between (looks.stable _ _ relied here))⟩
  · intro between relied response after answered
    have holdsBetween := looks.stable _ _ relied here
    rcases answers_openRead (sees between holdsBetween) answered with ⟨number, rfl, rfl⟩
    exact ⟨looks.quiet _, continued number _ holdsBetween⟩

/-! ## The functions -/

theorem getFileSize_follows (looks : Looks conduct holds) {path : Bytes} {place : Place} {node : Node}
    {rest : Int → Sys Value}
    (sees : ∀ state, holds state → state.lookup path = some (place, node)) (here : holds state)
    (continued : ∀ state, holds state →
      conduct.Follows Answers post (rest (nodeStat node).size) state) :
    conduct.Follows Answers post (getFileSize path >>= rest) state := by
  rw [getFileSize, bind_assoc]
  exact looks.stat (fun state holds => statOf_of_lookup (sees state holds)) here continued

theorem getFileMtime_follows (looks : Looks conduct holds) {path : Bytes} {place : Place} {node : Node}
    {rest : Int → Sys Value}
    (sees : ∀ state, holds state → state.lookup path = some (place, node)) (here : holds state)
    (continued : ∀ state, holds state →
      conduct.Follows Answers post (rest (nodeStat node).mtime) state) :
    conduct.Follows Answers post (getFileMtime path >>= rest) state := by
  rw [getFileMtime, bind_assoc]
  exact looks.stat (fun state holds => statOf_of_lookup (sees state holds)) here continued

/-- What is behind a piece decides, where the pieces are the same. -/
theorem drop_eq_iff {data1 data2 : Bytes} {offset count : Nat}
    (same : (data1.drop offset).take count = (data2.drop offset).take count) :
    data1.drop offset = data2.drop offset ↔
      data1.drop (offset + ((data1.drop offset).take count).length) =
        data2.drop (offset + ((data1.drop offset).take count).length) := by
  have split : ∀ data : Bytes, data.drop offset = (data.drop offset).take count ++
      data.drop (offset + ((data.drop offset).take count).length) := by
    intro data
    rw [← List.drop_drop]
    rcases Nat.le_total count (data.drop offset).length with long | short
    · rw [List.length_take_of_le long, List.take_append_drop]
    · rw [List.take_of_length_le short, List.drop_length, List.append_nil]
  constructor
  · intro whole
    rw [← List.drop_drop, ← List.drop_drop, whole]
  · intro rest
    have second := split data2
    rw [← same, ← rest, same] at second
    rw [second, ← same]
    exact split data1

theorem take_eq_nil {data : Bytes} {offset count : Nat} (positive : 0 < count)
    (empty : (data.drop offset).take count = []) : data.drop offset = [] := by
  rw [List.take_eq_nil_iff] at empty
  exact empty.resolve_left (Nat.ne_of_gt positive)

theorem compareContents_follows (looks : Looks conduct holds) {f1 f2 : Descriptor}
    {data1 data2 : Bytes}
    (sees1 : ∀ state, holds state → (state.dataOf f1).getD [] = data1)
    (sees2 : ∀ state, holds state → (state.dataOf f2).getD [] = data2) :
    ∀ rounds offset state, data1.length < offset + rounds → offset ≤ data1.length →
      holds state → conduct.Follows Answers
        (fun result after => result = decide (data1.drop offset = data2.drop offset) ∧ holds after)
        (compareContents f1 f2 rounds offset) state
  | 0, offset, state, enough, inside, here => absurd enough (by omega)
  | rounds + 1, offset, state, enough, inside, here => by
      rw [compareContents]
      apply looks.fread sees1 here
      intro _ here
      apply looks.fread sees2 here
      intro state here
      split
      · rename_i differ
        refine ⟨(decide_eq_false fun whole => ?_).symm, here⟩
        rw [whole] at differ
        simp at differ
      · rename_i same
        simp only [ne_eq, not_or, not_not] at same
        split
        · rename_i positive
          rw [decide_eq_decide.mpr (drop_eq_iff same.2)]
          apply compareContents_follows looks sees1 sees2 rounds
          · omega
          · have := List.length_take_le BUFFER_SIZE (data1.drop offset)
            rw [List.length_take, List.length_drop] at positive ⊢
            omega
          · exact here
        · rename_i empty
          have none1 : (data1.drop offset).take BUFFER_SIZE = [] :=
            List.eq_nil_of_length_eq_zero (by omega)
          have none2 := none1
          rw [same.2] at none2
          refine ⟨(decide_eq_true ?_).symm, here⟩
          rw [take_eq_nil (by decide) none1, take_eq_nil (by decide) none2]

/-- `compare_files` is the comparison of what the two paths lead to. -/
theorem compareFiles_follows (looks : Looks conduct holds) {source target : Bytes} {place : Place}
    {file : RegularFile} {found : Option (Place × Node)}
    (seesSource : ∀ state, holds state → state.lookup source = some (place, .regular file))
    (seesTarget : ∀ state, holds state → state.lookup target = found) (here : holds state) :
    conduct.Follows Answers (fun result after => result = comparison file found ∧ holds after)
      (compareFiles source target) state := by
  rw [compareFiles, fileExists]
  cases found with
  | none =>
      apply looks.access (fun state holds => by rw [seesTarget state holds]) here
      intro state here
      exact ⟨rfl, here⟩
  | some found =>
      rcases found with ⟨there, node⟩
      apply looks.access (fun state holds => by rw [seesTarget state holds]) here
      intro state here
      apply getFileSize_follows looks seesSource here
      intro state here
      apply getFileSize_follows looks seesTarget here
      intro state here
      rw [comparison, identical]
      generalize (1024 * 1024 : Int) = threshold
      split
      · rename_i differ
        exact ⟨(decide_eq_false fun same => differ same.1).symm, here⟩
      rename_i sizes
      rw [ne_eq, not_not] at sizes
      apply getFileMtime_follows looks seesSource here
      intro state here
      apply getFileMtime_follows looks seesTarget here
      intro state here
      split
      · rename_i same
        exact ⟨(decide_eq_true ⟨same.2, Or.inl same.1⟩).symm, here⟩
      rename_i times
      rw [not_and] at times
      by_cases small : (nodeStat (.regular file)).size < threshold
      · rw [if_pos small]
        apply looks.openRead seesSource here
        intro number1 state here
        apply looks.openRead seesTarget here
        intro number2 state here
        apply Conduct.Follows.bind
        have enough : file.data.length < 0 + ((nodeStat (.regular file)).size.toNat + 1) := by
          change file.data.length < 0 + ((file.data.length : Int).toNat + 1)
          omega
        have compared : conduct.Follows Answers (fun result after =>
            result = decide (file.data.drop 0 = (nodeData node).drop 0) ∧ holds after)
            (compareContents ⟨number1, place, (nodeStat (.regular file)).size.toNat⟩
              ⟨number2, there, (nodeStat node).size.toNat⟩
              ((nodeStat (.regular file)).size.toNat + 1) 0) state :=
          compareContents_follows looks (fun state holds => dataOf_of_lookup (seesSource state holds))
            (fun state holds => dataOf_of_lookup (seesTarget state holds)) _ 0 state enough
            (Nat.zero_le _) here
        apply Program.Always.mono compared
        rintro result state ⟨rfl, here⟩
        apply looks.close here
        intro state here
        apply looks.close here
        intro state here
        refine ⟨?_, here⟩
        rw [List.drop_zero, List.drop_zero, decide_eq_decide]
        constructor
        · exact fun same => ⟨sizes, Or.inr ⟨small, same⟩⟩
        · rintro ⟨_, same | same⟩
          · exact absurd sizes (times same)
          · exact same.2
      · rw [if_neg small]
        refine ⟨(decide_eq_false ?_).symm, here⟩
        rintro ⟨_, same | same⟩
        · exact absurd sizes (times same)
        · exact small same.1

/-! ### The simple synchroniser -/

theorem dataOf_file {path : Bytes} {place : Place} {node : Node} {number length : Nat}
    (found : state.lookup path = some (place, node)) :
    state.dataOf ⟨number, place, length⟩ = (nodeFile node).map RegularFile.data := by
  rw [SysState.dataOf, (Files.lookup_eq_some.mp found).2]
  cases node with
  | directory size mtime => rfl
  | regular file => rfl

namespace SimpleRsync

theorem compareContents_follows (looks : Looks conduct holds) {fd1 fd2 : Descriptor}
    {data1 : Bytes} {data2 : Option Bytes}
    (sees1 : ∀ state, holds state → state.dataOf fd1 = some data1)
    (sees2 : ∀ state, holds state → state.dataOf fd2 = data2) :
    ∀ rounds offset state, data1.length < offset + rounds → offset ≤ data1.length →
      holds state → conduct.Follows Answers
        (fun result after =>
          result = decide (some (data1.drop offset) = data2.map (List.drop offset)) ∧ holds after)
        (compareContents fd1 fd2 rounds offset) state
  | 0, offset, state, enough, inside, here => absurd enough (by omega)
  | rounds + 1, offset, state, enough, inside, here => by
      rw [compareContents]
      apply looks.read sees1 here
      intro _ here
      apply looks.read sees2 here
      intro state here
      cases data2 with
      | none =>
          rw [if_pos (by simp)]
          apply looks.close here
          intro state here
          apply looks.close here
          intro state here
          exact ⟨(decide_eq_false (by simp)).symm, here⟩
      | some data2 =>
          simp only [Option.map_some, Option.some.injEq]
          split
          · rename_i differ
            apply looks.close here
            intro state here
            apply looks.close here
            intro state here
            refine ⟨(decide_eq_false fun whole => ?_).symm, here⟩
            rw [whole] at differ
            exact differ rfl
          rename_i lengths
          rw [ne_eq, not_not] at lengths
          split
          · rename_i empty
            apply looks.close here
            intro state here
            apply looks.close here
            intro state here
            refine ⟨(decide_eq_true ?_).symm, here⟩
            have empty2 : (data2.drop offset).take SimpleRsync.BUFFER_SIZE = [] := by
              rw [empty] at lengths
              exact List.eq_nil_of_length_eq_zero (Option.some.inj lengths).symm
            rw [take_eq_nil (by decide) empty, take_eq_nil (by decide) empty2]
          rename_i nonempty
          split
          · rename_i differ
            apply looks.close here
            intro state here
            apply looks.close here
            intro state here
            refine ⟨(decide_eq_false fun whole => ?_).symm, here⟩
            rw [whole] at differ
            exact differ rfl
          · rename_i same
            rw [ne_eq, not_not] at same
            have positive := List.length_pos_iff.mpr nonempty
            have continued := compareContents_follows looks sees1 sees2 rounds
              (offset + ((data1.drop offset).take SimpleRsync.BUFFER_SIZE).length) state
              (by omega) (by
                rw [List.length_take, List.length_drop]
                omega) here
            simp only [Option.map_some, Option.some.injEq] at continued
            rw [decide_eq_decide.mpr (drop_eq_iff same)]
            exact continued

/-- `files_are_identical` is the comparison of what the two paths lead to. -/
theorem filesAreIdentical_follows (looks : Looks conduct holds) {source target : Bytes}
    {place there : Place} {file : RegularFile} {node : Node}
    (seesSource : ∀ state, holds state → state.lookup source = some (place, .regular file))
    (seesTarget : ∀ state, holds state → state.lookup target = some (there, node))
    (here : holds state) :
    conduct.Follows Answers
      (fun result after => result = SimpleRsync.identical file node ∧ holds after)
      (filesAreIdentical source target) state := by
  rw [filesAreIdentical]
  apply looks.stat (fun state holds => statOf_of_lookup (seesSource state holds)) here
  intro state here
  apply looks.stat (fun state holds => statOf_of_lookup (seesTarget state holds)) here
  intro state here
  rw [SimpleRsync.identical]
  dsimp only
  split
  · rename_i differ
    exact ⟨(decide_eq_false fun same => differ same.1).symm, here⟩
  rename_i sizes
  rw [ne_eq, not_not] at sizes
  split
  · rename_i times
    exact ⟨(decide_eq_true ⟨sizes, Or.inl times⟩).symm, here⟩
  rename_i times
  apply looks.openRead seesSource here
  intro number1 state here
  apply looks.openRead seesTarget here
  intro number2 state here
  have enough : file.data.length < 0 + ((nodeStat (.regular file)).size.toNat + 1) := by
    change file.data.length < 0 + ((file.data.length : Int).toNat + 1)
    omega
  have compared : conduct.Follows Answers (fun result after => result =
      decide (some (file.data.drop 0) = ((nodeFile node).map RegularFile.data).map (List.drop 0)) ∧
        holds after)
      (SimpleRsync.compareContents ⟨number1, place, (nodeStat (.regular file)).size.toNat⟩
        ⟨number2, there, (nodeStat node).size.toNat⟩
        ((nodeStat (.regular file)).size.toNat + 1) 0) state :=
    SimpleRsync.compareContents_follows looks
      (fun state holds => dataOf_file (seesSource state holds))
      (fun state holds => dataOf_file (seesTarget state holds)) _ 0 state enough
      (Nat.zero_le _) here
  apply Program.Always.mono compared
  rintro result state ⟨rfl, here⟩
  refine ⟨?_, here⟩
  rw [decide_eq_decide, Option.map_map, eq_comm, Option.map_eq_some_iff]
  simp only [Function.comp, List.drop_zero]
  constructor
  · rintro ⟨copy, isCopy, same⟩
    exact ⟨sizes, Or.inr ⟨copy, isCopy, same.symm⟩⟩
  · rintro ⟨_, same | ⟨copy, isCopy, same⟩⟩
    · exact absurd same times
    · exact ⟨copy, isCopy, same.symm⟩

theorem destinationIsIdentical_follows (looks : Looks conduct holds) {source target : Bytes}
    {place : Place} {file : RegularFile} {found : Option (Place × Node)}
    (seesSource : ∀ state, holds state → state.lookup source = some (place, .regular file))
    (seesTarget : ∀ state, holds state → state.lookup target = found) (here : holds state) :
    conduct.Follows Answers
      (fun result after => result = SimpleRsync.comparison file found ∧ holds after)
      (destinationIsIdentical source target) state := by
  rw [destinationIsIdentical]
  cases found with
  | none =>
      apply looks.stat (fun state holds => by rw [SysState.statOf, seesTarget state holds, Option.map_none]) here
      intro state here
      exact ⟨rfl, here⟩
  | some found =>
      rcases found with ⟨there, node⟩
      apply looks.stat (fun state holds => statOf_of_lookup (seesTarget state holds)) here
      intro state here
      exact filesAreIdentical_follows looks seesSource seesTarget here

end SimpleRsync

end Conduct

end Apue.Sync
