import Apue.Rot13.Programs
import Mathlib.Algebra.BigOperators.Fin

/-! # Transfers that complete in any order

Between any two calls of the program some transfers may complete.
-/

namespace Apue.Rot13

open Apue.Foundation

def Completes : System → System → Prop :=
  Relation.ReflTransGen fun before after => ∃ buffer, complete buffer before = some after

/-- A call behind transfers that complete. -/
def Steps (command : Call) (before : System) (response : Response command) (after : System) :
    Prop :=
  ∃ between, Completes before between ∧ perform command between = some (response, after)

/-- Whatever has completed, the call comes back, if need be when more has completed. -/
def Returns (command : Call) (system : System) : Prop :=
  ∀ between, Completes system between →
    ∃ later, Completes between later ∧ (perform command later).isSome = true

/-- Every run of the program comes to its end, with a result that is right. -/
abbrev Serves {Result : Type} (post : Result → System → Prop) (program : Code Result)
    (system : System) : Prop :=
  program.Always Steps Returns post system

section Serves

variable {Result Next : Type} {post : Result → System → Prop} {system between : System}
  {command : Call} {holds : System → Prop}

theorem Completes.keeps (stable : ∀ before buffer after, holds before →
      complete buffer before = some after → holds after)
    (here : holds system) (completes : Completes system between) : holds between := by
  induction completes with
  | refl => exact here
  | tail _ stepped hypothesis =>
      rcases stepped with ⟨buffer, completed⟩
      exact stable _ buffer _ hypothesis completed

/-- A call that has an answer as long as a condition holds. -/
theorem Serves.call {rest : Response command → Code Result}
    (stable : ∀ before buffer after, holds before → complete buffer before = some after →
      holds after)
    (here : holds system)
    (answers : ∀ between, holds between → ∃ response after,
      perform command between = some (response, after) ∧ Serves post (rest response) after) :
    Serves post (Program.perform command >>= rest) system := by
  apply Program.Always.call
  · intro between completes
    rcases answers between (completes.keeps stable here) with ⟨response, after, performed, _⟩
    exact ⟨between, .refl, by rw [performed]; rfl⟩
  · rintro response after ⟨between, completes, performed⟩
    rcases answers between (completes.keeps stable here) with ⟨known, _, performed', continued⟩
    rw [performed] at performed'
    cases performed'
    exact continued

theorem complete_idle {after : System} {buffer : Buffer}
    (idle : ∀ buffer, system.requests buffer = none) : complete buffer system ≠ some after := by
  intro completed
  rw [complete, idle] at completed
  cases completed

/-- A call while no transfer is under way. -/
theorem Serves.alone {rest : Response command → Code Result} {response : Response command}
    {after : System} (idle : ∀ buffer, system.requests buffer = none)
    (performed : perform command system = some (response, after))
    (continued : Serves post (rest response) after) :
    Serves post (Program.perform command >>= rest) system := by
  have stable : ∀ before buffer after, before = system → complete buffer before = some after →
      after = system := by
    intro before buffer after same completed
    rw [same] at completed
    exact absurd completed (complete_idle idle)
  apply Serves.call stable rfl
  intro between same
  rw [same]
  exact ⟨response, after, performed, continued⟩

end Serves

/-! ## The sequential program -/

namespace Rot13a

variable {ifd ofd infile outfile : String} {input : Bytes} {system : System} {offset : Nat}

/-- The input up to an offset is translated. -/
structure Copied (ifd ofd : String) (input : Bytes) (offset : Nat) (system : System) : Prop where
  idle : ∀ buffer, system.requests buffer = none
  source : system.files ifd = some input
  sourcePosition : system.position ifd = offset
  target : system.files ofd = some ((input.take offset).map translate)
  targetPosition : system.position ofd = offset
  inside : offset ≤ input.length

theorem copyLoop_serves (different : ifd ≠ ofd) (rounds : Nat)
    (copied : Copied ifd ofd input offset system) (enough : input.length - offset < rounds) :
    Serves (fun _ after => Copied ifd ofd input input.length after) (copyLoop ifd ofd rounds)
      system := by
  induction rounds generalizing offset system with
  | zero => exact absurd enough (Nat.not_lt_zero _)
  | succ rounds hypothesis =>
      rw [copyLoop]
      let after := system.setPosition ifd (offset + (pread input offset BSZ).length)
      have performed : perform (.read ifd BSZ) system = some (some (pread input offset BSZ), after) := by
        rw [perform, copied.source, copied.sourcePosition]
        rfl
      apply Serves.alone copied.idle performed
      have positive : 0 < BSZ := by decide
      have length : (pread input offset BSZ).length = min BSZ (input.length - offset) := by
        rw [pread, List.length_take, List.length_drop]
      cases bytes : pread input offset BSZ with
      | nil =>
          rw [bytes, List.length_nil] at length
          have ended : offset = input.length := by
            have inside := copied.inside
            omega
          subst ended
          have kept : after.position = system.position := by
            simp only [after, System.setPosition, bytes, List.length_nil, Nat.add_zero]
            rw [← copied.sourcePosition, Function.update_eq_self]
          exact ⟨copied.idle, copied.source, by rw [kept, copied.sourcePosition], copied.target,
            by rw [kept, copied.targetPosition], copied.inside⟩
      | cons byte bytes' =>
          rw [bytes] at length
          let text := (byte :: bytes').map translate
          have idle : ∀ buffer, after.requests buffer = none := copied.idle
          have sourcePosition : after.position ifd = offset + text.length := by
            rw [List.length_map, ← bytes]
            exact Function.update_self _ _ _
          have isTarget : after.files ofd = some ((input.take offset).map translate) := copied.target
          have isPosition : after.position ofd = offset := by
            rw [← copied.targetPosition]
            exact Function.update_of_ne different.symm _ _
          have performedWrite : perform (.write ofd text) after = some (some text.length,
              (after.setFile ofd ((input.take (offset + text.length)).map translate)).setPosition ofd
                (offset + text.length)) := by
            have isEnd : ((input.take offset).map translate).length = offset := by
              rw [List.length_map, List.length_take]
              exact Nat.min_eq_left copied.inside
            have appended : pwrite ((input.take offset).map translate) offset text =
                (input.take (offset + text.length)).map translate := by
              have atEnd := pwrite_end ((input.take offset).map translate) text
              rw [isEnd] at atEnd
              rw [atEnd, ← List.map_append, List.take_add]
              congr 2
              rw [List.length_map, length, ← bytes, pread, List.take_eq_take_iff, List.length_drop]
              omega
            rw [perform, isTarget, isPosition, ← appended]
            rfl
          apply Serves.alone idle performedWrite
          rw [if_neg]
          · apply @hypothesis _ (offset + text.length)
            · constructor
              · exact copied.idle
              · exact (Function.update_of_ne different _ _).trans copied.source
              · exact (Function.update_of_ne different _ _).trans sourcePosition
              · exact Function.update_self _ _ _
              · exact Function.update_self _ _ _
              · rw [List.length_map, length]
                have inside := copied.inside
                omega
            · rw [List.length_map, length]
              rw [List.length_cons] at length
              omega
          · rw [List.length_map]
            exact Classical.not_not.mpr rfl

/-- `rot13a` translates its input. -/
theorem main_serves {program : String} {rounds : Nat} (different : infile ≠ outfile)
    (idle : ∀ buffer, system.requests buffer = none) (source : system.files infile = some input)
    (enough : input.length < rounds) :
    Serves (fun _ after => after.files outfile = some (input.map translate))
      (main rounds [program, infile, outfile]) system := by
  have opened : perform (.openRead infile) system =
      some (some infile, system.setPosition infile 0) := by
    rw [perform, source]
    rfl
  apply Serves.alone idle opened
  let created := ((system.setPosition infile 0).setFile outfile []).setPosition outfile 0
  have performed : perform (.openWrite outfile) (system.setPosition infile 0) =
      some (some outfile, created) := rfl
  have opening : ∀ buffer, (system.setPosition infile 0).requests buffer = none := idle
  apply Serves.alone opening performed
  have start : Copied infile outfile input 0 created := by
    constructor
    · exact idle
    · exact (Function.update_of_ne different _ _).trans source
    · refine (Function.update_of_ne different _ _).trans ?_
      exact Function.update_self _ _ _
    · exact Function.update_self _ _ _
    · exact Function.update_self _ _ _
    · exact Nat.zero_le _
  apply Program.Always.bind
  apply (copyLoop_serves different rounds start enough).mono
  · intro _ after copied
    have synced : perform (.fsync outfile) after = some ((), after) := rfl
    apply Serves.alone copied.idle synced
    change after.files outfile = _
    rw [copied.target, List.take_length]

end Rot13a

end Apue.Rot13
