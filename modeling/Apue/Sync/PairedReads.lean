import Apue.Sync.BufferedCopies

/-! # Comparisons with given results of the reads

The loops of `compare_files` and `files_are_identical` read two files by turns. What
the calls of `read` and `fread` return is an input here.
-/

namespace Apue.Sync

open Apue.Foundation

/-- Where a loop stops is known from the first round that does not go on. -/
theorem exists_first_stop_iff {goes stops : Nat → Prop} {k : Nat}
    (apart : ∀ j, stops j → ¬ goes j) (before : ∀ j < k, goes j) (here : ¬ goes k) :
    (∃ j, (∀ i < j, goes i) ∧ stops j) ↔ stops k := by
  constructor
  · intro found
    rcases found with ⟨j, beforeJ, stopsJ⟩
    rcases Nat.lt_trichotomy j k with earlier | same | later
    · exact absurd (before j earlier) (apart j stopsJ)
    · rw [← same]
      exact stopsJ
    · exact absurd (beforeJ k later) here
  · exact fun stopped => ⟨k, before, stopped⟩

namespace Transfers

variable (transfers : Transfers) (size : Nat) (data1 data2 : Bytes)

/-- The offset in front of the k-th round. The calls with even numbers read the first
file, and those with odd numbers the second. -/
def pairedOffset : Nat → Nat
  | 0 => 0
  | k + 1 => pairedOffset k + (transfers.piece size data1 (2 * k) (pairedOffset k)).length

/-- The two pieces of the k-th round are equal, and the loop goes on. -/
structure Agrees (k : Nat) : Prop where
  nonempty : transfers.piece size data1 (2 * k) (transfers.pairedOffset size data1 k) ≠ []
  same : transfers.piece size data1 (2 * k) (transfers.pairedOffset size data1 k) =
    transfers.piece size data2 (2 * k + 1) (transfers.pairedOffset size data1 k)

def BothFail (k : Nat) : Prop :=
  transfers.read (2 * k) = .fails ∧ transfers.read (2 * k + 1) = .fails

/-- Behind equal pieces, both calls of a round fail. -/
def FailsTogether : Prop :=
  ∃ k, (∀ j < k, transfers.Agrees size data1 data2 j) ∧ transfers.BothFail k

/-- Behind equal pieces, both calls of a round return nothing, and there are bytes
left. -/
def EndsEarly : Prop :=
  ∃ k, (∀ j < k, transfers.Agrees size data1 data2 j) ∧
    (transfers.BothFail k ∧ transfers.pairedOffset size data1 k < data1.length)

/-- Every call reads as much as it can. -/
def Full : Prop :=
  ∀ k, ∃ count, transfers.read k = .gives count ∧ size ≤ count

/-- What a comparison returns is right, with the number of the calls that read. -/
structure Compared (result : Bool) (reads : Nat) : Prop where
  sound : result = true → data1 = data2 ∧
    ∃ k, reads = 2 * k ∧ transfers.pairedOffset size data1 k = data1.length
  complete : transfers.Full size → (result = true ↔ data1 = data2)

variable {transfers size data1 data2}

theorem pairedOffset_le (k : Nat) : transfers.pairedOffset size data1 k ≤ data1.length := by
  induction k with
  | zero => exact Nat.zero_le _
  | succ k hypothesis =>
      rcases @piece_eq transfers size data1 (2 * k) (transfers.pairedOffset size data1 k) with
        ⟨count, same⟩
      rw [pairedOffset, same, List.length_take, List.length_drop]
      omega

/-- What was read of the two files until then is equal. -/
theorem take_pairedOffset {k : Nat} (agrees : ∀ j < k, transfers.Agrees size data1 data2 j) :
    data1.take (transfers.pairedOffset size data1 k) =
      data2.take (transfers.pairedOffset size data1 k) := by
  induction k with
  | zero => rfl
  | succ k hypothesis =>
      have sofar := hypothesis fun j before => agrees j (Nat.lt_succ_of_lt before)
      have same := (agrees k (Nat.lt_succ_self k)).same
      rcases @piece_eq transfers size data1 (2 * k) (transfers.pairedOffset size data1 k) with
        ⟨count1, isPiece1⟩
      rcases @piece_eq transfers size data2 (2 * k + 1) (transfers.pairedOffset size data1 k) with
        ⟨count2, isPiece2⟩
      have first := take_append_piece data1 (transfers.pairedOffset size data1 k) count1
      have second := take_append_piece data2 (transfers.pairedOffset size data1 k) count2
      rw [← isPiece1] at first
      rw [← isPiece2, ← same] at second
      rw [pairedOffset, ← first, ← second, sofar]

theorem piece_of_fails {k offset : Nat} {data : Bytes} (fails : transfers.read k = .fails) :
    transfers.piece size data k offset = [] := by
  rw [piece, fails]
  rfl

theorem le_of_piece_eq_nil {k offset : Nat} {data : Bytes} (positive : 0 < size)
    (reads : transfers.read k ≠ .fails) (nothing : transfers.piece size data k offset = []) :
    data.length ≤ offset := by
  rw [piece] at nothing
  cases given : transfers.read k with
  | fails => exact absurd given reads
  | gives count =>
      rw [given, ReadOutcome.returned, Option.getD_some, List.take_take, List.take_eq_nil_iff,
        List.drop_eq_nil_iff] at nothing
      omega

theorem BothFail.not_agrees {k : Nat} (fail : transfers.BothFail k) :
    ¬ transfers.Agrees size data1 data2 k :=
  fun agrees => agrees.nonempty (piece_of_fails fail.1)

theorem Full.piece_eq (full : transfers.Full size) (k offset : Nat) (data : Bytes) :
    transfers.piece size data k offset = (data.drop offset).take size := by
  rcases full k with ⟨count, given, enough⟩
  rw [piece, given, ReadOutcome.returned, Option.getD_some, List.take_take]
  congr 1
  omega

/-- A loop that finds a difference is right. -/
theorem Compared.differs {k reads : Nat}
    (differs : transfers.piece size data1 (2 * k) (transfers.pairedOffset size data1 k) ≠
      transfers.piece size data2 (2 * k + 1) (transfers.pairedOffset size data1 k)) :
    transfers.Compared size data1 data2 false reads where
  sound := Bool.noConfusion
  complete := by
    intro full
    apply iff_of_false Bool.noConfusion
    intro equal
    rw [full.piece_eq, full.piece_eq, equal] at differs
    exact differs rfl

/-- A loop that has compared everything is right. -/
theorem Compared.whole {k : Nat} (sameSize : data1.length = data2.length)
    (agrees : ∀ j < k, transfers.Agrees size data1 data2 j)
    (nothing : transfers.piece size data1 (2 * k) (transfers.pairedOffset size data1 k) = [])
    (atEnd : transfers.pairedOffset size data1 k = data1.length) :
    transfers.Compared size data1 data2 true (2 * (k + 1)) := by
  have sofar := take_pairedOffset agrees
  have equal : data1 = data2 := by
    rw [atEnd, List.take_length, sameSize, List.take_length] at sofar
    exact sofar
  constructor
  · intro _
    refine ⟨equal, k + 1, rfl, ?_⟩
    rw [pairedOffset, nothing, atEnd]
    rfl
  · exact fun _ => iff_of_true rfl equal

/-- A loop that takes its stop for the end is right exactly when it is the end. -/
theorem compared_iff {k : Nat} (positive : 0 < size) (sameSize : data1.length = data2.length)
    (agrees : ∀ j < k, transfers.Agrees size data1 data2 j)
    (nothing1 : transfers.piece size data1 (2 * k) (transfers.pairedOffset size data1 k) = [])
    (nothing2 : transfers.piece size data2 (2 * k + 1) (transfers.pairedOffset size data1 k) = []) :
    transfers.Compared size data1 data2 true (2 * (k + 1)) ↔
      ¬ (transfers.BothFail k ∧ transfers.pairedOffset size data1 k < data1.length) := by
  have within := @pairedOffset_le transfers size data1 k
  constructor
  · intro compared early
    rcases (compared.sound rfl).2 with ⟨last, isLast, atEnd⟩
    have same : last = k + 1 := by omega
    rw [same, pairedOffset, nothing1] at atEnd
    exact absurd early.2 (by rw [← atEnd]; exact Nat.lt_irrefl _)
  · intro notEarly
    apply Compared.whole sameSize agrees nothing1
    by_cases fail : transfers.BothFail k
    · by_contra short
      exact notEarly ⟨fail, by omega⟩
    · rw [BothFail, not_and_or] at fail
      rcases fail with reads | reads
      · have atEnd := le_of_piece_eq_nil positive reads nothing1
        omega
      · have atEnd := le_of_piece_eq_nil positive reads nothing2
        omega

/-- With a failure among them, the calls are not all full. -/
theorem Compared.failed {k reads : Nat} (fails : transfers.read k = .fails) :
    transfers.Compared size data1 data2 false reads where
  sound := Bool.noConfusion
  complete := by
    intro full
    rcases full k with ⟨count, given, _⟩
    rw [fails] at given
    cases given

end Transfers

/-! ## The loops -/

/-- The loop of the two functions `compare_files`, whose buffers differ in their size. -/
def compareStreams (size : Nat) (f1 f2 : Descriptor) : Nat → Nat → Sys Bool
  | 0, _ => Sys.outOfRounds
  | rounds + 1, offset => do
      let buffer1 ← Sys.fread f1 offset size
      let buffer2 ← Sys.fread f2 offset size
      if buffer1.length ≠ buffer2.length ∨ buffer1 ≠ buffer2 then
        return false
      if buffer1.length > 0 then
        compareStreams size f1 f2 rounds (offset + buffer1.length)
      else
        return true

theorem compareContents_eq (f1 f2 : Descriptor) (rounds offset : Nat) :
    compareContents f1 f2 rounds offset = compareStreams BUFFER_SIZE f1 f2 rounds offset := by
  induction rounds generalizing offset with
  | zero => rfl
  | succ rounds hypothesis =>
      rw [compareContents, compareStreams]
      simp only [hypothesis]

theorem MultiProcess.compareContents_eq (f1 f2 : Descriptor) (rounds offset : Nat) :
    MultiProcess.compareContents f1 f2 rounds offset =
      compareStreams MultiProcess.BUFFER_SIZE f1 f2 rounds offset := by
  induction rounds generalizing offset with
  | zero => rfl
  | succ rounds hypothesis =>
      rw [MultiProcess.compareContents, compareStreams]
      simp only [hypothesis]

/-- The loop ends, and it compares what was read. -/
def Defined (call : SysCall) (_ : Metered) : Prop :=
  call ≠ .undefined ∧ call ≠ .outOfRounds

/-- A comparison compares what was read, and what it returns is right. -/
abbrev ComparesRight (transfers : Transfers) (size : Nat) (data1 data2 : Bytes)
    (comparison : Sys Bool) (before : Metered) : Prop :=
  comparison.Always (Transferred transfers) Defined
    (fun result after => transfers.Compared size data1 data2 result after.reads) before

section Loops

variable {transfers : Transfers} {size : Nat} {data1 data2 data : Bytes} {f1 f2 descriptor : Descriptor}
  {state : SysState} {Value : Type} {post : Value → Metered → Prop} {before : Metered}
  {offset count : Nat}

theorem always_fread_iff {rest : Bytes → Sys Value}
    (found : before.system.dataOf descriptor = some data) :
    (Sys.fread descriptor offset size >>= rest).Always (Transferred transfers) Defined post before ↔
      (rest (transfers.piece size data before.reads offset)).Always (Transferred transfers) Defined
        post { before with reads := before.reads + 1 } := by
  constructor
  · exact fun always => always.2 _ _ (.fread found)
  · intro always
    apply Program.Always.call ⟨SysCall.noConfusion, SysCall.noConfusion⟩
    intro response after answered
    cases answered with
    | fread there =>
        rw [found] at there
        cases there
        exact always
    | other other _ => exact absurd trivial other

theorem always_read_iff {rest : Option Bytes → Sys Value}
    (found : before.system.dataOf descriptor = some data) :
    (Sys.read descriptor offset size >>= rest).Always (Transferred transfers) Defined post before ↔
      (rest ((transfers.read before.reads).returned ((data.drop offset).take size))).Always
        (Transferred transfers) Defined post { before with reads := before.reads + 1 } := by
  constructor
  · exact fun always => always.2 _ _ (.read found)
  · intro always
    apply Program.Always.call ⟨SysCall.noConfusion, SysCall.noConfusion⟩
    intro response after answered
    rcases transferred_read found answered with ⟨rfl, rfl⟩
    exact always

theorem always_close_iff {rest : Unit → Sys Value} :
    (Sys.close descriptor >>= rest).Always (Transferred transfers) Defined post before ↔
      (rest ()).Always (Transferred transfers) Defined post before := by
  constructor
  · exact fun always => always.2 () _ (.other id (.close descriptor before.system))
  · intro always
    apply Program.Always.call ⟨SysCall.noConfusion, SysCall.noConfusion⟩
    intro response after answered
    cases answered with
    | other _ answered =>
        cases answered
        exact always

theorem compareStreams_right_iff (positive : 0 < size) (sameSize : data1.length = data2.length)
    (found1 : state.dataOf f1 = some data1) (found2 : state.dataOf f2 = some data2) {writes : Nat} :
    ∀ rounds k, data1.length < transfers.pairedOffset size data1 k + rounds →
      (∀ j < k, transfers.Agrees size data1 data2 j) →
      (ComparesRight transfers size data1 data2
          (compareStreams size f1 f2 rounds (transfers.pairedOffset size data1 k))
          ⟨state, 2 * k, writes⟩ ↔
        ¬ transfers.EndsEarly size data1 data2)
  | 0, k, enough, agrees => by
      have within := @Transfers.pairedOffset_le transfers size data1 k
      omega
  | rounds + 1, k, enough, agrees => by
      rw [compareStreams, ComparesRight, always_fread_iff found1, always_fread_iff found2]
      dsimp only
      by_cases here : transfers.Agrees size data1 data2 k
      · have positive := List.length_pos_iff.mpr here.nonempty
        rw [if_neg (fun differs => differs.elim (fun other => other (congrArg _ here.same))
          fun other => other here.same), if_pos positive]
        apply compareStreams_right_iff ‹_› sameSize found1 found2 rounds (k + 1)
        · rw [Transfers.pairedOffset]
          omega
        · intro j inFront
          rcases Nat.lt_succ_iff_lt_or_eq.mp inFront with earlier | rfl
          · exact agrees j earlier
          · exact here
      · have apart : ∀ j, transfers.BothFail j ∧ transfers.pairedOffset size data1 j < data1.length →
            ¬ transfers.Agrees size data1 data2 j := fun j early => early.1.not_agrees
        rw [Transfers.EndsEarly, exists_first_stop_iff apart agrees here]
        split
        · rename_i different
          have differs : transfers.piece size data1 (2 * k) (transfers.pairedOffset size data1 k) ≠
              transfers.piece size data2 (2 * k + 1) (transfers.pairedOffset size data1 k) := by
            intro same
            rcases different with other | other
            · exact other (congrArg _ same)
            · exact other same
          apply iff_of_true
          · exact Transfers.Compared.differs differs
          · intro early
            rw [Transfers.piece_of_fails early.1.1, Transfers.piece_of_fails early.1.2] at differs
            exact differs rfl
        · rename_i equal
          rw [not_or, not_not, not_not] at equal
          have nothing : transfers.piece size data1 (2 * k) (transfers.pairedOffset size data1 k) = [] := by
            by_contra nonempty
            exact here ⟨nonempty, equal.2⟩
          rw [if_neg (by rw [nothing]; exact Nat.lt_irrefl 0)]
          exact Transfers.compared_iff positive sameSize agrees nothing (equal.2 ▸ nothing)

/-- A call that does not fail returns its piece. -/
theorem Transfers.returned_piece {k : Nat} (reads : transfers.read k ≠ .fails) :
    (transfers.read k).returned ((data.drop offset).take size) =
      some (transfers.piece size data k offset) := by
  rw [Transfers.piece]
  cases given : transfers.read k with
  | fails => exact absurd given reads
  | gives count => rfl

/-- The loop closes both files and returns. -/
theorem closesBoth_iff {result : Bool} :
    ComparesRight transfers size data1 data2
        (do Sys.close f1; Sys.close f2; return result) before ↔
      transfers.Compared size data1 data2 result before.reads := by
  rw [ComparesRight, always_close_iff, always_close_iff]
  rfl

theorem SimpleRsync.compareContents_right_iff (sameSize : data1.length = data2.length)
    (found1 : state.dataOf f1 = some data1) (found2 : state.dataOf f2 = some data2) {writes : Nat} :
    ∀ rounds k, data1.length < transfers.pairedOffset SimpleRsync.BUFFER_SIZE data1 k + rounds →
      (∀ j < k, transfers.Agrees SimpleRsync.BUFFER_SIZE data1 data2 j) →
      (ComparesRight transfers SimpleRsync.BUFFER_SIZE data1 data2
          (SimpleRsync.compareContents f1 f2 rounds
            (transfers.pairedOffset SimpleRsync.BUFFER_SIZE data1 k))
          ⟨state, 2 * k, writes⟩ ↔
        ¬ transfers.FailsTogether SimpleRsync.BUFFER_SIZE data1 data2)
  | 0, k, enough, agrees => by
      have within := @Transfers.pairedOffset_le transfers SimpleRsync.BUFFER_SIZE data1 k
      omega
  | rounds + 1, k, enough, agrees => by
      have apart : ∀ j, transfers.BothFail j →
          ¬ transfers.Agrees SimpleRsync.BUFFER_SIZE data1 data2 j := fun j fail => fail.not_agrees
      rw [SimpleRsync.compareContents, ComparesRight, always_read_iff found1, always_read_iff found2]
      dsimp only
      by_cases fails1 : transfers.read (2 * k) = .fails
      · have here : ¬ transfers.Agrees SimpleRsync.BUFFER_SIZE data1 data2 k :=
          fun agrees => agrees.nonempty (Transfers.piece_of_fails fails1)
        rw [Transfers.FailsTogether, exists_first_stop_iff apart agrees here, fails1]
        by_cases fails2 : transfers.read (2 * k + 1) = .fails
        · -- `memcmp` gets the size -1.
          rw [fails2]
          apply iff_of_false
          · exact fun always => absurd rfl always.1.1
          · exact fun notBoth => notBoth ⟨fails1, fails2⟩
        · rw [Transfers.returned_piece fails2, if_pos (fun equal => by cases equal)]
          apply iff_of_true
          · exact closesBoth_iff.mpr (.failed fails1)
          · exact fun both => fails2 both.2
      rw [Transfers.returned_piece fails1]
      by_cases fails2 : transfers.read (2 * k + 1) = .fails
      · have here : ¬ transfers.Agrees SimpleRsync.BUFFER_SIZE data1 data2 k :=
          fun agrees => agrees.nonempty (agrees.same.trans (Transfers.piece_of_fails fails2))
        rw [Transfers.FailsTogether, exists_first_stop_iff apart agrees here, fails2, if_pos (fun equal => by cases equal)]
        apply iff_of_true
        · exact closesBoth_iff.mpr (.failed fails2)
        · exact fun both => fails1 both.1
      rw [Transfers.returned_piece fails2]
      by_cases here : transfers.Agrees SimpleRsync.BUFFER_SIZE data1 data2 k
      · rw [if_neg (fun other => other (congrArg _ (congrArg some here.same)))]
        dsimp only
        rw [if_neg here.nonempty, if_neg (fun other => other here.same)]
        apply compareContents_right_iff sameSize found1 found2 rounds (k + 1)
        · have positive := List.length_pos_iff.mpr here.nonempty
          rw [Transfers.pairedOffset]
          omega
        · intro j inFront
          rcases Nat.lt_succ_iff_lt_or_eq.mp inFront with earlier | rfl
          · exact agrees j earlier
          · exact here
      rw [Transfers.FailsTogether, exists_first_stop_iff apart agrees here]
      have notBoth : ¬ transfers.BothFail k := fun both => fails1 both.1
      split
      · rename_i different
        apply iff_of_true _ notBoth
        apply closesBoth_iff.mpr
        exact .differs fun same => different (congrArg _ (congrArg some same))
      rename_i sameLength
      rw [not_not, Option.map_some, Option.map_some, Option.some.injEq] at sameLength
      dsimp only
      split
      · rename_i nothing1
        rw [nothing1] at sameLength
        have nothing2 := List.eq_nil_of_length_eq_zero sameLength.symm
        apply iff_of_true _ notBoth
        apply closesBoth_iff.mpr
        exact (Transfers.compared_iff (by decide) sameSize agrees nothing1 nothing2).mpr
          fun early => notBoth early.1
      · rename_i nonempty
        have differs : transfers.piece SimpleRsync.BUFFER_SIZE data1 (2 * k)
              (transfers.pairedOffset SimpleRsync.BUFFER_SIZE data1 k) ≠
            transfers.piece SimpleRsync.BUFFER_SIZE data2 (2 * k + 1)
              (transfers.pairedOffset SimpleRsync.BUFFER_SIZE data1 k) :=
          fun same => here ⟨nonempty, same⟩
        rw [if_pos differs]
        apply iff_of_true _ notBoth
        exact closesBoth_iff.mpr (.differs differs)

end Loops

/-- With the two files open, the comparisons of the three programs are right unless both
calls of a round fail, before the end of the files for those with `fread`. -/
theorem comparisons_right_iff (transfers : Transfers) (state : SysState) {f1 f2 : Descriptor}
    {data1 data2 : Bytes} (sameSize : data1.length = data2.length) (isLength : f1.length = data1.length)
    (found1 : state.dataOf f1 = some data1) (found2 : state.dataOf f2 = some data2) :
    (ComparesRight transfers BUFFER_SIZE data1 data2 (compareContents f1 f2 (f1.length + 1) 0)
        ⟨state, 0, 0⟩ ↔ ¬ transfers.EndsEarly BUFFER_SIZE data1 data2) ∧
      (ComparesRight transfers MultiProcess.BUFFER_SIZE data1 data2
        (MultiProcess.compareContents f1 f2 (f1.length + 1) 0) ⟨state, 0, 0⟩ ↔
          ¬ transfers.EndsEarly MultiProcess.BUFFER_SIZE data1 data2) ∧
      (ComparesRight transfers SimpleRsync.BUFFER_SIZE data1 data2
        (SimpleRsync.compareContents f1 f2 (f1.length + 1) 0) ⟨state, 0, 0⟩ ↔
          ¬ transfers.FailsTogether SimpleRsync.BUFFER_SIZE data1 data2) := by
  have enough : data1.length < 0 + (f1.length + 1) := by omega
  refine ⟨?_, ?_, ?_⟩
  · rw [compareContents_eq]
    exact compareStreams_right_iff (by decide) sameSize found1 found2 _ 0 enough nofun
  · rw [MultiProcess.compareContents_eq]
    exact compareStreams_right_iff (by decide) sameSize found1 found2 _ 0 enough nofun
  · exact SimpleRsync.compareContents_right_iff sameSize found1 found2 _ 0 enough nofun

/-- Two files of one byte that differ. -/
def twoBytes : SysState where
  files := fun place =>
    if place = [[97]] then some (.regular ⟨[1], 5, 420⟩)
    else if place = [[98]] then some (.regular ⟨[2], 6, 420⟩)
    else if place = [] then some (.directory 0 0)
    else none
  cwd := []
  opened := []
  reported := []
  outcomes := []

def largeReads : Transfers := ⟨fun _ => .gives 9000, fun _ => .fails, true⟩

def noReads : Transfers := ⟨fun _ => .fails, fun _ => .fails, true⟩

theorem comparisons_right_iff_full :
    (ComparesRight largeReads BUFFER_SIZE [1] [2]
        (compareContents ⟨3, [[97]], 1⟩ ⟨4, [[98]], 1⟩ 2 0) ⟨twoBytes, 0, 0⟩ ↔
          ¬ largeReads.EndsEarly BUFFER_SIZE [1] [2]) ∧
      (ComparesRight largeReads MultiProcess.BUFFER_SIZE [1] [2]
        (MultiProcess.compareContents ⟨3, [[97]], 1⟩ ⟨4, [[98]], 1⟩ 2 0) ⟨twoBytes, 0, 0⟩ ↔
          ¬ largeReads.EndsEarly
            MultiProcess.BUFFER_SIZE [1] [2]) ∧
      (ComparesRight largeReads SimpleRsync.BUFFER_SIZE [1] [2]
        (SimpleRsync.compareContents ⟨3, [[97]], 1⟩ ⟨4, [[98]], 1⟩ 2 0) ⟨twoBytes, 0, 0⟩ ↔
          ¬ largeReads.FailsTogether
            SimpleRsync.BUFFER_SIZE [1] [2]) :=
  @comparisons_right_iff _ twoBytes ⟨3, [[97]], 1⟩ ⟨4, [[98]], 1⟩ [1] [2] rfl rfl rfl rfl

/-- Every call fails: two of the comparisons return that the files are identical, and the
third one calls `memcmp` with the size -1. -/
theorem comparisons_wrong :
    (¬ ComparesRight noReads BUFFER_SIZE [1] [2]
        (compareContents ⟨3, [[97]], 1⟩ ⟨4, [[98]], 1⟩ 2 0) ⟨twoBytes, 0, 0⟩) ∧
      (¬ ComparesRight noReads MultiProcess.BUFFER_SIZE [1] [2]
        (MultiProcess.compareContents ⟨3, [[97]], 1⟩ ⟨4, [[98]], 1⟩ 2 0) ⟨twoBytes, 0, 0⟩) ∧
      ¬ ComparesRight noReads SimpleRsync.BUFFER_SIZE [1] [2]
        (SimpleRsync.compareContents ⟨3, [[97]], 1⟩ ⟨4, [[98]], 1⟩ 2 0) ⟨twoBytes, 0, 0⟩ := by
  have early : ∀ size, noReads.EndsEarly size [1] [2] :=
    fun size => ⟨0, nofun, ⟨rfl, rfl⟩, Nat.one_pos⟩
  have sameSize : ([1] : Bytes).length = ([2] : Bytes).length := rfl
  have streams : ∀ size, 0 < size →
      ¬ ComparesRight noReads size [1] [2]
        (compareStreams size ⟨3, [[97]], 1⟩ ⟨4, [[98]], 1⟩ 2 0) ⟨twoBytes, 0, 0⟩ := by
    intro size positive right
    have inTime : [1].length < noReads.pairedOffset size [1] 0 + 2 := Nat.lt_succ_self 1
    exact (compareStreams_right_iff positive sameSize rfl rfl 2 0 inTime nofun).mp right (early size)
  refine ⟨?_, ?_, ?_⟩
  · rw [compareContents_eq]
    exact streams BUFFER_SIZE (by decide)
  · rw [MultiProcess.compareContents_eq]
    exact streams MultiProcess.BUFFER_SIZE (by decide)
  · intro right
    have inTime : [1].length < noReads.pairedOffset SimpleRsync.BUFFER_SIZE [1] 0 + 2 :=
      Nat.lt_succ_self 1
    exact (SimpleRsync.compareContents_right_iff sameSize rfl rfl 2 0 inTime nofun).mp right
      ⟨0, nofun, ⟨rfl, rfl⟩⟩

end Apue.Sync
