import Apue.Foundation.Always
import Apue.Foundation.ByteFile

/-! # Transfers in pieces

`readn` and `writen` of `lib`, and `treadn` of `printer/util.c`. A call may transfer fewer
bytes than it is asked for, and the next one goes on behind them.
-/

namespace Apue.Printer.PartialTransfers

open Apue.Foundation Ascii

abbrev Errno := Int

def ETIME : Errno := 62

def SSIZE_MAX : Nat := 2 ^ 63 - 1

/-- The conversion of a `size_t` to the `ssize_t` that is returned. -/
def ssize (number : Nat) : Int := Int.bmod number (2 ^ 64)

/-- Memory of the caller. No object is larger. -/
abbrev Object := { bytes : Bytes // bytes.length ≤ SSIZE_MAX }

/-- The pointers are offsets in the memory of the caller. -/
inductive Call
  | read (ptr count : Nat)
  | select (timout : Nat)
  | write (ptr count : Nat)
  /-- The loop does not end within its bound. -/
  | outOfRounds

def Response : Call → Type
  | .read _ _ => Except Errno Nat
  | .select _ => Except Errno Nat
  | .write _ _ => Except Errno Nat
  | .outOfRounds => Unit

abbrev Transfer := Program Call Response

/-- `results` is a history: the bytes that each call took from the descriptor or gave to it. -/
structure Memory where
  buf : Bytes
  results : List (Except Errno Bytes)

def Memory.add (memory : Memory) (result : Except Errno Bytes) : Memory :=
  { memory with results := memory.results ++ [result] }

inductive Outcomes : (call : Call) → Memory → Response call → Memory → Prop
  | read {ptr count : Nat} {bytes : Bytes} (before : Memory) (within : bytes.length ≤ count) :
      Outcomes (.read ptr count) before (.ok bytes.length : Except Errno Nat)
        ({ before with buf := pwrite before.buf ptr bytes }.add (.ok bytes))
  | readFails {ptr count : Nat} (err : Errno) (before : Memory) :
      Outcomes (.read ptr count) before (.error err : Except Errno Nat) (before.add (.error err))
  | select {timout nfds : Nat} (before : Memory) (ready : 0 < nfds) :
      Outcomes (.select timout) before (.ok nfds : Except Errno Nat) before
  | selectExpires {timout : Nat} (before : Memory) :
      Outcomes (.select timout) before (.ok 0 : Except Errno Nat) (before.add (.error ETIME))
  | selectFails {timout : Nat} (err : Errno) (before : Memory) :
      Outcomes (.select timout) before (.error err : Except Errno Nat) (before.add (.error err))
  | write {ptr count nwritten : Nat} (before : Memory) (within : nwritten ≤ count) :
      Outcomes (.write ptr count) before (.ok nwritten : Except Errno Nat)
        (before.add (.ok (pread before.buf ptr nwritten)))
  | writeFails {ptr count : Nat} (err : Errno) (before : Memory) :
      Outcomes (.write ptr count) before (.error err : Except Errno Nat) (before.add (.error err))
  | outOfRounds (before : Memory) : Outcomes .outOfRounds before () before

/-- The calls stay inside the memory of the caller, and the loop inside its bound. -/
def Permitted : Call → Memory → Prop
  | .read ptr count, memory => ptr + count ≤ memory.buf.length
  | .select _, _ => True
  | .write ptr count, memory => ptr + count ≤ memory.buf.length
  | .outOfRounds, _ => False

def read (ptr count : Nat) : Transfer (Except Errno Nat) := .perform (Call.read ptr count)

def write (ptr count : Nat) : Transfer (Except Errno Nat) := .perform (Call.write ptr count)

def select (timout : Nat) : Transfer (Except Errno Nat) := .perform (Call.select timout)

def tread (timout : Nat) (buf nbytes : Nat) : Transfer (Except Errno Nat) := do
  match ← select timout with
  | .error err => return .error err
  | .ok 0 => return .error ETIME
  | .ok _ => read buf nbytes

/-- The loop that the functions share, with a bound on its rounds. -/
def transferLoop (call : Nat → Nat → Transfer (Except Errno Nat)) (n : Nat) :
    Nat → Nat → Nat → Transfer Int
  | 0, nleft, _ => do
      let () ← Program.perform (Call.outOfRounds)
      return ssize (n - nleft)
  | rounds + 1, nleft, ptr =>
      if 0 < nleft then do
        match ← call ptr nleft with
        | .error _ => return if nleft = n then -1 else ssize (n - nleft)
        | .ok 0 => return ssize (n - nleft)
        | .ok moved => transferLoop call n rounds (nleft - moved) (ptr + moved)
      else return ssize (n - nleft)

def readn (n : Nat) : Transfer Int := transferLoop read n (n + 1) n 0

def writen (n : Nat) : Transfer Int := transferLoop write n (n + 1) n 0

def treadn (nbytes timout : Nat) : Transfer Int :=
  transferLoop (tread timout) nbytes (nbytes + 1) nbytes 0

/-! ## What has been moved -/

/-- The bytes of the calls that have not failed. -/
def Memory.moved (memory : Memory) : Bytes :=
  memory.results.flatMap fun result => result.toOption.getD []

def Memory.Failed (memory : Memory) : Prop := ∃ err, .error err ∈ memory.results

/-- A call has met the end of the file. -/
def Memory.Ended (memory : Memory) : Prop := .ok [] ∈ memory.results

/-- `Holds` relates the bytes that have been moved and the memory. -/
structure Moves (n : Nat) (Holds : Bytes → Bytes → Prop) (rval : Int) (after : Memory) : Prop where
  holds : Holds after.moved after.buf
  number : rval ≠ -1 → rval = after.moved.length
  failed : rval = -1 ↔ after.moved = [] ∧ after.Failed
  whole : after.moved.length = n ∨ after.moved.length < n ∧ (after.Ended ∨ after.Failed)

/-- The moved bytes are at the start of the memory, and the rest is as it was. -/
def Stored (memory : Bytes) (moved buf : Bytes) : Prop := buf = moved ++ memory.drop moved.length

/-- The moved bytes are those at the start of the memory. -/
def HandedOver (memory : Bytes) (moved buf : Bytes) : Prop :=
  buf = memory ∧ moved = memory.take moved.length

/-! ## One call -/

section Step

variable {n nleft ptr : Nat} {Holds : Bytes → Bytes → Prop} {before after : Memory} {rval : Int}

theorem ssize_eq {number : Nat} (small : number ≤ SSIZE_MAX) : ssize number = number := by
  rw [SSIZE_MAX] at small
  exact Int.bmod_eq_of_le (by omega) (by omega)

/-- The loop before a call. -/
structure Going (n : Nat) (Holds : Bytes → Bytes → Prop) (nleft ptr : Nat) (memory : Memory) :
    Prop where
  count : memory.moved.length = ptr
  left : ptr + nleft = n
  holds : Holds memory.moved memory.buf
  notEnded : ¬ memory.Ended
  notFailed : ¬ memory.Failed

/-- What a call adds to the history. -/
def Adds (Holds : Bytes → Bytes → Prop) (nleft : Nat) (before : Memory) (result : Except Errno Nat)
    (after : Memory) : Prop :=
  match result with
  | .error _ => ∃ err, after.results = before.results ++ [.error err] ∧ Holds before.moved after.buf
  | .ok moved => ∃ bytes : Bytes, bytes.length = moved ∧ moved ≤ nleft ∧
      after.results = before.results ++ [.ok bytes] ∧ Holds (before.moved ++ bytes) after.buf

theorem moved_of_results {result : Except Errno Bytes}
    (added : after.results = before.results ++ [result]) :
    after.moved = before.moved ++ result.toOption.getD [] := by
  rw [Memory.moved, added, List.flatMap_append, List.flatMap_singleton]
  rfl

theorem Going.stop (going : Going n Holds nleft ptr before) (small : n ≤ SSIZE_MAX) :
    ssize (n - nleft) = before.moved.length := by
  have left := going.left
  have done : n - nleft = before.moved.length := by
    rw [going.count]
    omega
  rw [done, ssize_eq]
  rw [going.count]
  omega

/-- The call has failed. -/
theorem Going.moves_failed (going : Going n Holds nleft ptr before) (small : n ≤ SSIZE_MAX)
    (more : 0 < nleft) {err : Errno} (added : after.results = before.results ++ [.error err])
    (holds : Holds before.moved after.buf) :
    Moves n Holds (if nleft = n then -1 else ssize (n - nleft)) after := by
  have left := going.left
  have count := going.count
  have sameBytes : after.moved = before.moved := by
    rw [moved_of_results added]
    exact List.append_nil _
  have failed : after.Failed := ⟨err, added ▸ List.mem_append_right _ List.mem_cons_self⟩
  have stops := going.stop small
  have first : nleft = n ↔ after.moved = [] := by
    rw [sameBytes, ← List.length_eq_zero_iff, count]
    omega
  constructor
  case holds =>
    rw [sameBytes]
    exact holds
  case number =>
    intro notFailed
    by_cases isFirst : nleft = n
    · rw [if_pos isFirst] at notFailed
      exact absurd rfl notFailed
    · rw [if_neg isFirst, stops, sameBytes]
  case failed =>
    rw [← first]
    by_cases isFirst : nleft = n
    · rw [if_pos isFirst]
      exact ⟨fun _ => ⟨isFirst, failed⟩, fun _ => rfl⟩
    · rw [if_neg isFirst, stops]
      exact ⟨fun negative => absurd negative (by omega), fun both => absurd both.1 isFirst⟩
  case whole =>
    rw [sameBytes, count]
    exact Or.inr ⟨by omega, Or.inr failed⟩

/-- Nothing has failed, and no more calls are made. -/
theorem Going.moves (going : Going n Holds nleft ptr before) (small : n ≤ SSIZE_MAX)
    (sameBytes : after.moved = before.moved) (notFailed : ¬ after.Failed)
    (holds : Holds before.moved after.buf) (ended : nleft = 0 ∨ after.Ended) :
    Moves n Holds (ssize (n - nleft)) after := by
  have left := going.left
  have count := going.count
  rw [going.stop small]
  constructor
  case holds =>
    rw [sameBytes]
    exact holds
  case number =>
    intro _
    rw [sameBytes]
  case failed => exact ⟨fun negative => absurd negative (by omega), fun both => absurd both.2 notFailed⟩
  case whole =>
    rw [sameBytes, count]
    rcases Nat.eq_zero_or_pos nleft with isZero | more
    · exact Or.inl (by omega)
    · exact Or.inr ⟨by omega, Or.inl (ended.resolve_left (Nat.ne_of_gt more))⟩

theorem Going.notFailed_ok (going : Going n Holds nleft ptr before) {bytes : Bytes}
    (added : after.results = before.results ++ [.ok bytes]) : ¬ after.Failed := by
  rintro ⟨err, member⟩
  rw [added] at member
  rcases List.mem_append.mp member with old | isNew
  · exact going.notFailed ⟨err, old⟩
  · cases List.mem_singleton.mp isNew

theorem Going.next (going : Going n Holds nleft ptr before) {bytes : Bytes}
    (within : bytes.length ≤ nleft) (some : bytes ≠ [])
    (added : after.results = before.results ++ [.ok bytes])
    (holds : Holds (before.moved ++ bytes) after.buf) :
    Going n Holds (nleft - bytes.length) (ptr + bytes.length) after := by
  have left := going.left
  have moved : after.moved = before.moved ++ bytes := moved_of_results added
  constructor
  case count => rw [moved, List.length_append, going.count]
  case left => omega
  case holds =>
    rw [moved]
    exact holds
  case notEnded =>
    intro ended
    rw [Memory.Ended, added] at ended
    rcases List.mem_append.mp ended with old | isNew
    · exact going.notEnded old
    · cases List.mem_singleton.mp isNew
      exact some rfl
  case notFailed => exact going.notFailed_ok added

end Step

/-! ## The loop -/

section Loop

variable {call : Nat → Nat → Transfer (Except Errno Nat)} {n : Nat} {Holds : Bytes → Bytes → Prop}

/-- What a call does at every place in the loop. -/
def Steps (call : Nat → Nat → Transfer (Except Errno Nat)) (n : Nat) (Holds : Bytes → Bytes → Prop) :
    Prop :=
  ∀ {nleft ptr : Nat} {before : Memory}, Going n Holds nleft ptr before →
    (call ptr nleft).Always Outcomes Permitted (Adds Holds nleft before) before

/-- Every round but the last moves at least one byte. -/
theorem transferLoop_moves (steps : Steps call n Holds) (small : n ≤ SSIZE_MAX) :
    ∀ {rounds nleft ptr : Nat} {memory : Memory}, Going n Holds nleft ptr memory → nleft < rounds →
      (transferLoop call n rounds nleft ptr).Always Outcomes Permitted (Moves n Holds) memory
  | 0, _, _, _, _, enough => absurd enough (Nat.not_lt_zero _)
  | rounds + 1, nleft, ptr, memory, going, enough => by
      rw [transferLoop]
      by_cases more : 0 < nleft
      · rw [if_pos more]
        apply Program.Always.bind
        apply (steps going).mono
        intro result after adds
        cases result with
        | error _ =>
            rcases adds with ⟨err, added, holds⟩
            exact going.moves_failed small more added holds
        | ok moved =>
            rcases adds with ⟨bytes, rfl, within, added, holds⟩
            by_cases isEnd : bytes = []
            · subst isEnd
              have sameBytes : after.moved = memory.moved := by
                rw [moved_of_results added]
                exact List.append_nil _
              have ended : after.Ended := by
                rw [Memory.Ended, added]
                exact List.mem_append_right _ List.mem_cons_self
              rw [List.append_nil] at holds
              exact going.moves small sameBytes (going.notFailed_ok added) holds (Or.inr ended)
            · have positive := List.length_pos_of_ne_nil isEnd
              have continues := transferLoop_moves steps small (going.next within isEnd added holds)
                (show nleft - bytes.length < rounds by omega)
              rcases Nat.exists_eq_succ_of_ne_zero (Nat.ne_of_gt positive) with ⟨less, isLess⟩
              rw [isLess] at continues ⊢
              exact continues
      · rw [if_neg more]
        exact going.moves small rfl going.notFailed going.holds (Or.inl (Nat.eq_zero_of_not_pos more))

end Loop

/-! ## The three calls -/

section Calls

variable {memory moved buf bytes : Bytes} {n nleft ptr : Nat} {before : Memory}

theorem Stored.length (stored : Stored memory moved buf) (inside : moved.length ≤ memory.length) :
    buf.length = memory.length := by
  rw [stored, List.length_append, List.length_drop]
  omega

theorem Stored.pwrite (stored : Stored memory moved buf)
    (inside : moved.length + bytes.length ≤ memory.length) :
    Stored memory (moved ++ bytes) (pwrite buf moved.length bytes) := by
  have fits : bytes.length ≤ (memory.drop moved.length).length := by
    rw [List.length_drop]
    omega
  have written := @pwrite_within moved (memory.drop moved.length) [] bytes fits
  rw [List.append_nil, List.append_nil, List.drop_drop, ← List.append_assoc] at written
  rw [Stored, stored, written, List.length_append]

theorem HandedOver.pread {nwritten : Nat} (handed : HandedOver memory moved buf)
    (inside : moved.length + nwritten ≤ memory.length) :
    (pread buf moved.length nwritten).length = nwritten ∧
      HandedOver memory (moved ++ pread buf moved.length nwritten) buf := by
  rcases handed with ⟨rfl, isFront⟩
  have count : (Foundation.pread buf moved.length nwritten).length = nwritten := by
    rw [Foundation.pread, List.length_take, List.length_drop]
    omega
  refine ⟨count, rfl, ?_⟩
  rw [List.length_append, count, List.take_add, ← isFront]
  rfl

variable (room : n ≤ memory.length)

theorem read_adds (holds : Stored memory before.moved before.buf) (count : before.moved.length = ptr)
    (inside : ptr + nleft ≤ memory.length) :
    (read ptr nleft).Always Outcomes Permitted (Adds (Stored memory) nleft before) before := by
  have small : before.moved.length ≤ memory.length := by omega
  apply Program.Always.perform
  · rw [Permitted, holds.length small]
    exact inside
  · intro response after outcome
    cases outcome with
    | readFails err => exact ⟨err, rfl, holds⟩
    | @read _ _ bytes _ within =>
        refine ⟨bytes, rfl, within, rfl, ?_⟩
        rw [← count]
        exact holds.pwrite (by omega)

include room

theorem steps_read : Steps read n (Stored memory) := by
  intro nleft ptr before going
  exact read_adds going.holds going.count (going.left ▸ room)

theorem steps_tread (timout : Nat) : Steps (tread timout) n (Stored memory) := by
  intro nleft ptr before going
  apply Program.Always.call trivial
  intro response after outcome
  cases outcome with
  | selectFails err => exact ⟨err, rfl, going.holds⟩
  | selectExpires => exact ⟨ETIME, rfl, going.holds⟩
  | @select _ nfds _ ready =>
      rcases Nat.exists_eq_succ_of_ne_zero (Nat.ne_of_gt ready) with ⟨fewer, rfl⟩
      exact read_adds going.holds going.count (going.left ▸ room)

theorem steps_write : Steps write n (HandedOver memory) := by
  intro nleft ptr before going
  have left := going.left
  have count := going.count
  apply Program.Always.perform
  · rw [Permitted, going.holds.1]
    omega
  · intro response after outcome
    cases outcome with
    | writeFails err => exact ⟨err, rfl, going.holds⟩
    | @write _ _ nwritten _ within =>
        have handed := @HandedOver.pread memory before.moved before.buf nwritten going.holds (by omega)
        rw [count] at handed
        exact ⟨_, handed.1, within, rfl, handed.2⟩

end Calls

/-! ## The three functions -/

/-- The caller's memory before the first call. -/
def Memory.start (memory : Bytes) : Memory := { buf := memory, results := [] }

theorem Going.start {n : Nat} {Holds : Bytes → Bytes → Prop} {memory : Bytes}
    (holds : Holds [] memory) : Going n Holds n 0 (.start memory) where
  count := rfl
  left := Nat.zero_add n
  holds := holds
  notEnded := nofun
  notFailed := nofun

/-- Whatever the calls give, the functions move bytes to the start of the memory or from it,
and return how many, or -1 where a call fails before the first byte. -/
theorem transfers_move (n timout : Nat) (memory : Object) (room : n ≤ memory.val.length) :
    (readn n).Always Outcomes Permitted (Moves n (Stored memory.val)) (.start memory.val) ∧
      (treadn n timout).Always Outcomes Permitted (Moves n (Stored memory.val))
        (.start memory.val) ∧
      (writen n).Always Outcomes Permitted (Moves n (HandedOver memory.val))
        (.start memory.val) := by
  have small : n ≤ SSIZE_MAX := room.trans memory.property
  have nothingStored : Stored memory.val [] memory.val := rfl
  have nothingHandedOver : HandedOver memory.val [] memory.val := ⟨rfl, rfl⟩
  refine ⟨?_, ?_, ?_⟩
  · exact transferLoop_moves (steps_read room) small (.start nothingStored) (Nat.lt_succ_self n)
  · exact transferLoop_moves (steps_tread room timout) small (.start nothingStored)
      (Nat.lt_succ_self n)
  · exact transferLoop_moves (steps_write room) small (.start nothingHandedOver)
      (Nat.lt_succ_self n)

theorem transfers_move_three :
    (readn 3).Always Outcomes Permitted (Moves 3 (Stored [7, 8, 9])) (.start [7, 8, 9]) ∧
      (treadn 3 10).Always Outcomes Permitted (Moves 3 (Stored [7, 8, 9])) (.start [7, 8, 9]) ∧
      (writen 3).Always Outcomes Permitted (Moves 3 (HandedOver [7, 8, 9])) (.start [7, 8, 9]) :=
  transfers_move 3 10 ⟨[7, 8, 9], by decide⟩ (by decide)

/-- Two bytes arrive, and then the connection breaks. -/
example : Program.Runs Outcomes (readn 3) (.start [7, 8, 9]) 2
    { buf := [1, 2, 9], results := [.ok [1, 2], .error 104] } := by
  have arrives : ([1, 2] : Bytes).length ≤ 3 := by decide
  exact .call (Outcomes.read (.start [7, 8, 9]) arrives) (.call (Outcomes.readFails 104 _) (.done 2 _))

end Apue.Printer.PartialTransfers
