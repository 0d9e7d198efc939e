import Apue.Foundation.LocalReasoning

/-! # Telling and waiting with pipes

In `ipc1/tellwait.c` a parent and its child send one another single bytes, each
through a pipe of its own.
-/

namespace Apue.TellWait

open Apue.Foundation

inductive Party
  | parent
  | child
  deriving DecidableEq

def Party.other : Party → Party
  | .parent => .child
  | .child => .parent

theorem Party.other_ne (party : Party) : party.other ≠ party := by
  cases party <;> exact Party.noConfusion

theorem Party.other_other (party : Party) : party.other.other = party := by
  cases party <;> rfl

theorem Party.eq_other {party other : Party} (different : other ≠ party) : other = party.other := by
  cases party <;> cases other <;> first | rfl | exact absurd rfl different

/-- A process that tells first in every round, or waits first. -/
def rounds {Call : Type} {Response : Call → Type} (tell wait : Program Call Response Unit)
    (leads : Bool) : Nat → Program Call Response Unit
  | 0 => return ()
  | count + 1 => do
      if leads then
        tell
        wait
      else
        wait
        tell
      rounds tell wait leads count

/-- Nobody has come back from WAIT more often than it was told. -/
def InOrder (told waited : Party → Nat) : Prop := ∀ party, waited party ≤ told party.other

namespace Pipes

inductive Pipe
  | pfd1
  | pfd2
  deriving DecidableEq

/-- The pipes, and a history: how often each process has called TELL, and how often
it has read a byte in WAIT. -/
structure System where
  contents : Pipe → List Char
  told : Party → Nat
  waited : Party → Nat

inductive Call
  | write (pipe : Pipe) (byte : Char)
  | read (pipe : Pipe)
  | err_quit
  deriving DecidableEq

def Response : Call → Type
  | .write _ _ => Unit
  | .read _ => Char
  | .err_quit => Empty

abbrev Code : Type := Program Call Response Unit

/-- What a call does; `none` while it has to wait. Both processes keep all ends of the
pipes open. -/
def perform (party : Party) : (call : Call) → System → Option (Response call × System)
  | .write pipe byte, system => some ((), { system with
      contents := Function.update system.contents pipe (system.contents pipe ++ [byte])
      told := Function.update system.told party (system.told party + 1) })
  | .read pipe, system =>
      match system.contents pipe with
      | [] => none
      | byte :: rest => some (byte, { system with
          contents := Function.update system.contents pipe rest
          waited := Function.update system.waited party (system.waited party + 1) })
  | .err_quit, _ => none

def err_quit : Code := .call Call.err_quit fun never : Empty => nomatch never

def TELL_PARENT : Code := .perform (Call.write .pfd2 'c')

def WAIT_PARENT : Code :=
  Program.perform (Call.read .pfd1) >>= fun c : Char =>
    if c ≠ 'p' then err_quit else return ()

def TELL_CHILD : Code := .perform (Call.write .pfd1 'p')

def WAIT_CHILD : Code :=
  Program.perform (Call.read .pfd2) >>= fun c : Char =>
    if c ≠ 'c' then err_quit else return ()

def tell : Party → Code
  | .parent => TELL_CHILD
  | .child => TELL_PARENT

def wait : Party → Code
  | .parent => WAIT_CHILD
  | .child => WAIT_PARENT

/-- After `TELL_WAIT` and `fork`. -/
def start (leader : Party) (count : Nat) : Pool Party Call Response System Unit where
  programs := fun party => rounds (tell party) (wait party) (party = leader) count
  state := { contents := fun _ => [], told := fun _ => 0, waited := fun _ => 0 }

/-- Runs of the two processes. -/
def Reaches (leader : Party) (count : Nat) : Pool Party Call Response System Unit → Prop :=
  Pool.Reachable (fun party call before response after =>
    perform party call before = some (response, after)) (start leader count)

/-- A process sleeps in WAIT though it was told. -/
def Stranded (pool : Pool Party Call Response System Unit) (party : Party) : Prop :=
  ∃ pipe next, pool.programs party = .call (.read pipe) next ∧ pool.state.contents pipe = [] ∧
    pool.state.waited party < pool.state.told party.other

/-- The pipe that a party reads from. -/
def pipe : Party → Pipe
  | .parent => .pfd2
  | .child => .pfd1

/-- The byte that a party is told with. -/
def byte : Party → Char
  | .parent => 'c'
  | .child => 'p'

/-- What a party was told with and has not read yet is in its pipe. -/
def Valid (system : System) : Prop :=
  ∀ party, ∃ unread, system.contents (pipe party) = List.replicate unread (byte party) ∧
    system.told party.other = system.waited party + unread

def logic : LocalLogic Party Call Response System Unit Unit where
  step := fun party call before response after => perform party call before = some (response, after)
  valid := fun _ => Valid
  localOf := fun _ _ => ()
  allowed := fun party call _ => match call with
    | .write into sent => into = pipe party.other ∧ sent = byte party.other
    | .read source => source = pipe party
    | .err_quit => False

section Safe

variable {party : Party} {post : Unit → Unit → Prop} {rest : Unit → Code}

theorem pipe_injective {left right : Party} (same : pipe left = pipe right) : left = right := by
  cases left <;> cases right <;> first | rfl | cases same

theorem tell_safe (continued : logic.Safe party post (rest ()) ()) :
    logic.Safe party post (tell party >>= rest) () := by
  have isTell : tell party = Program.perform (Call.write (pipe party.other) (byte party.other)) := by
    cases party <;> rfl
  have allowed : logic.allowed party (.write (pipe party.other) (byte party.other)) () := ⟨rfl, rfl⟩
  rw [isTell]
  apply LocalLogic.Safe.perform allowed
  intro _ system valid _ response after performed
  cases performed
  refine ⟨(), ?_, fun _ _ => rfl, continued⟩
  intro other
  rcases valid other with ⟨unread, contents, told⟩
  dsimp only
  by_cases same : other = party
  · subst same
    refine ⟨unread, ?_, ?_⟩
    · rw [Function.update_of_ne]
      · exact contents
      · exact fun equal => Party.other_ne other (pipe_injective equal).symm
    · rw [Function.update_of_ne (Party.other_ne other)]
      exact told
  · cases Party.eq_other same
    rw [party.other_other] at told ⊢
    refine ⟨unread + 1, ?_, ?_⟩
    · rw [Function.update_self, contents, List.replicate_succ']
    · rw [Function.update_self, told, Nat.add_assoc]

theorem wait_safe (continued : logic.Safe party post (rest ()) ()) :
    logic.Safe party post (wait party >>= rest) () := by
  have isWait : wait party = Program.perform (Call.read (pipe party)) >>= fun c : Char =>
      if c ≠ byte party then err_quit else return () := by
    cases party <;> rfl
  have allowed : logic.allowed party (.read (pipe party)) () := rfl
  rw [isWait]
  apply LocalLogic.Safe.perform allowed
  intro _ system valid _ response after performed
  rcases valid party with ⟨unread, contents, told⟩
  change perform party (.read (pipe party)) system = _ at performed
  rw [perform, contents] at performed
  cases unread with
  | zero => cases performed
  | succ unread =>
      cases performed
      refine ⟨(), ?_, fun _ _ => rfl, ?_⟩
      · intro other
        dsimp only
        by_cases same : other = party
        · subst same
          refine ⟨unread, Function.update_self _ _ _, ?_⟩
          rw [Function.update_self, told]
          omega
        · rw [Function.update_of_ne same, Function.update_of_ne]
          · exact valid other
          · exact fun equal => same (pipe_injective equal)
      · change logic.Safe party post
          ((if byte party ≠ byte party then err_quit else return ()) >>= rest) ()
        rw [if_neg (Classical.not_not.mpr rfl)]
        exact continued

theorem rounds_safe (leads : Bool) (count : Nat) :
    logic.Safe party (fun _ _ => True) (rounds (tell party) (wait party) leads count) () := by
  induction count with
  | zero => trivial
  | succ count hypothesis =>
      rw [rounds]
      cases leads with
      | true => exact tell_safe (wait_safe hypothesis)
      | false => exact wait_safe (tell_safe hypothesis)

end Safe

/-- In every run WAIT returns only behind its TELL, and then it does return: nobody
sleeps that was told, and nobody reads a wrong byte. -/
theorem reaches_sound {leader : Party} {count : Nat} {pool : Pool Party Call Response System Unit}
    (reached : Reaches leader count pool) :
    InOrder pool.state.told pool.state.waited ∧
      ∀ party, ¬ Stranded pool party ∧ ∀ never, pool.programs party ≠ .call .err_quit never := by
  have begun : logic.PoolSafe (fun _ _ _ => True) (start leader count) :=
    ⟨(), fun _ => ⟨0, rfl, rfl⟩, fun _ => rounds_safe _ count⟩
  rcases begun.reachable reached with ⟨_, valid, all⟩
  constructor
  · intro party
    rcases valid party with ⟨unread, _, told⟩
    omega
  · intro party
    have mine := all party
    constructor
    · rintro ⟨source, next, waiting, empty, behind⟩
      rw [waiting] at mine
      rcases valid party with ⟨unread, contents, told⟩
      cases mine.1
      rw [contents, List.replicate_eq_nil_iff] at empty
      omega
    · intro never waiting
      rw [waiting] at mine
      exact mine.1

end Pipes

end Apue.TellWait
