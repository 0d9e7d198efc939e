import Apue.Foundation.Run
import Mathlib.Logic.Function.Basic

/-! # Modes of terminals

`lib/ttymodes.c` puts a terminal into a mode and back. Its static variables are kept here with the
attributes of all terminals.
-/

namespace Apue.Library.TerminalModes

open Apue.Foundation

structure Termios where
  c_iflag : BitVec 32
  c_oflag : BitVec 32
  c_cflag : BitVec 32
  c_lflag : BitVec 32
  c_cc : Nat → UInt8

/-- The constants of the system. -/
structure Constants where
  ECHO : BitVec 32
  ICANON : BitVec 32
  IEXTEN : BitVec 32
  ISIG : BitVec 32
  BRKINT : BitVec 32
  ICRNL : BitVec 32
  INPCK : BitVec 32
  ISTRIP : BitVec 32
  IXON : BitVec 32
  CSIZE : BitVec 32
  PARENB : BitVec 32
  CS8 : BitVec 32
  OPOST : BitVec 32
  VMIN : Nat
  VTIME : Nat

inductive TtyState
  | RESET
  | RAW
  | CBREAK
  deriving DecidableEq

/-- The static variables, and the attributes of the terminals. -/
structure System (Terminal : Type) where
  save_termios : Termios
  ttysavefd : Int
  ttystate : TtyState
  attributes : Terminal → Termios

/-- The part of the changes that `tcsetattr` makes where it returns 0. -/
structure Taken where
  c_iflag : BitVec 32
  c_oflag : BitVec 32
  c_cflag : BitVec 32
  c_lflag : BitVec 32
  c_cc : Nat → Bool

def mix (mask old new : BitVec 32) : BitVec 32 := (new &&& mask) ||| (old &&& ~~~mask)

def Taken.apply (taken : Taken) (old new : Termios) : Termios where
  c_iflag := mix taken.c_iflag old.c_iflag new.c_iflag
  c_oflag := mix taken.c_oflag old.c_oflag new.c_oflag
  c_cflag := mix taken.c_cflag old.c_cflag new.c_cflag
  c_lflag := mix taken.c_lflag old.c_lflag new.c_lflag
  c_cc := fun i => if taken.c_cc i then new.c_cc i else old.c_cc i

/-- What the calls return that a mode function makes before it restores anything. -/
structure Results where
  tcgetattr : Bool
  tcsetattr : Option Taken
  verify : Bool

/-- What distinguishes the two mode functions. -/
structure Mode where
  change : Termios → Termios
  stuck : Termios → Bool
  ttystate : TtyState

variable {Terminal : Type} [DecidableEq Terminal]

def System.set (system : System Terminal) (tty : Terminal) (buf : Termios) : System Terminal :=
  { system with attributes := Function.update system.attributes tty buf }

/-- `terminal` tells the terminal that a descriptor refers to, if it refers to one. -/
def enter (terminal : Int → Option Terminal) (mode : Mode) (results : Results)
    (system : System Terminal) (fd : Int) : System Terminal × Int :=
  if system.ttystate ≠ .RESET then (system, -1)
  else
    match terminal fd with
    | none => (system, -1)
    | some tty =>
        if results.tcgetattr = false then (system, -1)
        else
          let buf := system.attributes tty
          let system := { system with save_termios := buf }
          match results.tcsetattr with
          | none => (system, -1)
          | some taken =>
              let system := system.set tty (taken.apply buf (mode.change buf))
              if results.verify = false then (system.set tty system.save_termios, -1)
              -- Only some of the changes were made.
              else if mode.stuck (system.attributes tty) = false then
                (system.set tty system.save_termios, -1)
              else ({ system with ttystate := mode.ttystate, ttysavefd := fd }, 0)

def oneByte (constants : Constants) (c_cc : Nat → UInt8) : Nat → UInt8 :=
  Function.update (Function.update c_cc constants.VMIN 1) constants.VTIME 0

def cbreak (constants : Constants) : Mode where
  change := fun buf => { buf with
    c_lflag := buf.c_lflag &&& ~~~(constants.ECHO ||| constants.ICANON)
    c_cc := oneByte constants buf.c_cc }
  stuck := fun buf => !(buf.c_lflag &&& (constants.ECHO ||| constants.ICANON) != 0 ||
    buf.c_cc constants.VMIN != 1 || buf.c_cc constants.VTIME != 0)
  ttystate := .CBREAK

def raw (constants : Constants) : Mode where
  change := fun buf =>
    { c_lflag := buf.c_lflag &&&
        ~~~(constants.ECHO ||| constants.ICANON ||| constants.IEXTEN ||| constants.ISIG)
      c_iflag := buf.c_iflag &&& ~~~(constants.BRKINT ||| constants.ICRNL ||| constants.INPCK |||
        constants.ISTRIP ||| constants.IXON)
      c_cflag := (buf.c_cflag &&& ~~~(constants.CSIZE ||| constants.PARENB)) ||| constants.CS8
      c_oflag := buf.c_oflag &&& ~~~constants.OPOST
      c_cc := oneByte constants buf.c_cc }
  stuck := fun buf =>
    !(buf.c_lflag &&& (constants.ECHO ||| constants.ICANON ||| constants.IEXTEN |||
        constants.ISIG) != 0 ||
      buf.c_iflag &&& (constants.BRKINT ||| constants.ICRNL ||| constants.INPCK |||
        constants.ISTRIP ||| constants.IXON) != 0 ||
      buf.c_cflag &&& (constants.CSIZE ||| constants.PARENB ||| constants.CS8) != constants.CS8 ||
      buf.c_oflag &&& constants.OPOST != 0 || buf.c_cc constants.VMIN != 1 ||
      buf.c_cc constants.VTIME != 0)
  ttystate := .RAW

def ttyCbreak (terminal : Int → Option Terminal) (constants : Constants) :
    Results → System Terminal → Int → System Terminal × Int :=
  enter terminal (cbreak constants)

def ttyRaw (terminal : Int → Option Terminal) (constants : Constants) :
    Results → System Terminal → Int → System Terminal × Int :=
  enter terminal (raw constants)

/-- Restoring succeeds on every descriptor of a terminal. -/
def ttyReset (terminal : Int → Option Terminal) (system : System Terminal) (fd : Int) :
    System Terminal × Int :=
  if system.ttystate = .RESET then (system, 0)
  else
    match terminal fd with
    | none => (system, -1)
    | some tty => ({ system.set tty system.save_termios with ttystate := .RESET }, 0)

def ttyAtexit (terminal : Int → Option Terminal) (system : System Terminal) : System Terminal :=
  if system.ttysavefd ≥ 0 then (ttyReset terminal system system.ttysavefd).1 else system

/-! ## Sequences of calls -/

inductive Call
  | ttyCbreak (fd : Int) (results : Results)
  | ttyRaw (fd : Int) (results : Results)
  | ttyReset (fd : Int)
  | ttyAtexit

/-- The state behind a call, and what it returns. -/
def perform (terminal : Int → Option Terminal) (constants : Constants) (system : System Terminal) :
    Call → System Terminal × Option Int
  | .ttyCbreak fd results =>
      ((ttyCbreak terminal constants results system fd).1,
        some (ttyCbreak terminal constants results system fd).2)
  | .ttyRaw fd results =>
      ((ttyRaw terminal constants results system fd).1,
        some (ttyRaw terminal constants results system fd).2)
  | .ttyReset fd => ((ttyReset terminal system fd).1, some (ttyReset terminal system fd).2)
  | .ttyAtexit => (ttyAtexit terminal system, none)

def step (terminal : Int → Option Terminal) (constants : Constants) (system : System Terminal)
    (call : Call) : Option (System Terminal) :=
  some (perform terminal constants system call).1

/-- `save_termios` is all zero at first. -/
def System.initial (attributes : Terminal → Termios) : System Terminal where
  save_termios := ⟨0, 0, 0, 0, fun _ => 0⟩
  ttysavefd := -1
  ttystate := .RESET
  attributes := attributes

/-- A reset is meant for the terminal that was put into a mode. A descriptor that refers to no
terminal does no harm. -/
def Meant (terminal : Int → Option Terminal) (system : System Terminal) : Call → Prop
  | .ttyReset fd => system.ttystate ≠ .RESET →
      terminal fd = none ∨ terminal fd = terminal system.ttysavefd
  | _ => True

/-- The terminals have their attributes where the state says so, and a call that fails keeps them. -/
structure Faithful (terminal : Int → Option Terminal) (constants : Constants)
    (original : Terminal → Termios) (system : System Terminal) : Prop where
  reset : system.ttystate = .RESET → system.attributes = original
  failed : ∀ call, (perform terminal constants system call).2 = some (-1) →
    (perform terminal constants system call).1.attributes = system.attributes

/-! ## One call -/

section Calls

variable {terminal : Int → Option Terminal} {system : System Terminal} {original : Terminal → Termios}

theorem set_restored (system : System Terminal) (tty : Terminal) (buf : Termios) :
    ((system.set tty buf).set tty (system.attributes tty)).attributes = system.attributes := by
  rw [System.set, System.set]
  dsimp only
  rw [Function.update_idem, Function.update_eq_self]

/-- What a mode function does: it fails and keeps the attributes, or the terminal is in the mode and
its attributes are saved. -/
theorem enter_cases (terminal : Int → Option Terminal) (mode : Mode) (results : Results)
    (system : System Terminal) (fd : Int) :
    ((enter terminal mode results system fd).2 = -1 ∧
      (enter terminal mode results system fd).1.attributes = system.attributes ∧
      (enter terminal mode results system fd).1.ttystate = system.ttystate ∧
      (enter terminal mode results system fd).1.ttysavefd = system.ttysavefd ∧
      (system.ttystate ≠ .RESET → (enter terminal mode results system fd).1 = system)) ∨
    ((enter terminal mode results system fd).2 = 0 ∧ system.ttystate = .RESET ∧
      ∃ tty buf, terminal fd = some tty ∧ (enter terminal mode results system fd).1 =
        { system.set tty buf with
          save_termios := system.attributes tty
          ttystate := mode.ttystate
          ttysavefd := fd }) := by
  rw [enter]
  by_cases busy : system.ttystate ≠ .RESET
  · rw [if_pos busy]
    exact Or.inl ⟨rfl, rfl, rfl, rfl, fun _ => rfl⟩
  · rw [if_neg busy]
    cases isTerminal : terminal fd with
    | none => exact Or.inl ⟨rfl, rfl, rfl, rfl, fun _ => rfl⟩
    | some tty =>
        dsimp only
        by_cases notRead : results.tcgetattr = false
        · rw [if_pos notRead]
          exact Or.inl ⟨rfl, rfl, rfl, rfl, fun _ => rfl⟩
        · rw [if_neg notRead]
          cases results.tcsetattr with
          | none => exact Or.inl ⟨rfl, rfl, rfl, rfl, fun isBusy => absurd isBusy busy⟩
          | some taken =>
              dsimp only
              have restored := set_restored { system with save_termios := system.attributes tty } tty
                (taken.apply (system.attributes tty) (mode.change (system.attributes tty)))
              by_cases notVerified : results.verify = false
              · rw [if_pos notVerified]
                exact Or.inl ⟨rfl, restored, rfl, rfl, fun isBusy => absurd isBusy busy⟩
              · rw [if_neg notVerified]
                split
                · exact Or.inl ⟨rfl, restored, rfl, rfl, fun isBusy => absurd isBusy busy⟩
                · exact Or.inr ⟨rfl, not_not.mp busy, tty, _, rfl, rfl⟩

theorem ttyReset_failed {fd : Int} (failed : (ttyReset terminal system fd).2 = -1) :
    (ttyReset terminal system fd).1 = system := by
  rw [ttyReset] at failed ⊢
  split at failed
  · cases failed
  · rename_i busy
    rw [if_neg busy]
    cases isTerminal : terminal fd with
    | none => rfl
    | some tty =>
        rw [isTerminal] at failed
        cases failed

/-- A call that fails keeps the attributes of all terminals. -/
theorem perform_failed (constants : Constants) {call : Call}
    (failed : (perform terminal constants system call).2 = some (-1)) :
    (perform terminal constants system call).1.attributes = system.attributes := by
  have entered : ∀ (mode : Mode) (results : Results) (fd : Int),
      (enter terminal mode results system fd).2 = -1 →
        (enter terminal mode results system fd).1.attributes = system.attributes := by
    intro mode results fd isFailed
    rcases enter_cases terminal mode results system fd with ⟨_, same, _⟩ | ⟨succeeded, _⟩
    · exact same
    · rw [succeeded] at isFailed
      cases isFailed
  cases call with
  | ttyCbreak fd results => exact entered _ results fd (Option.some.inj failed)
  | ttyRaw fd results => exact entered _ results fd (Option.some.inj failed)
  | ttyReset fd => exact congrArg System.attributes (ttyReset_failed (Option.some.inj failed))
  | ttyAtexit => cases failed

/-- Outside a mode all terminals are as they were, and in a mode all but the one whose attributes are
saved. -/
structure InOrder (terminal : Int → Option Terminal) (original : Terminal → Termios)
    (system : System Terminal) : Prop where
  reset : system.ttystate = .RESET → system.attributes = original
  mode : system.ttystate ≠ .RESET → ∃ tty, terminal system.ttysavefd = some tty ∧
    system.save_termios = original tty ∧
    ∀ other, other ≠ tty → system.attributes other = original other

theorem InOrder.enter (inOrder : InOrder terminal original system) {mode : Mode}
    (isMode : mode.ttystate ≠ .RESET) (results : Results) (fd : Int) :
    InOrder terminal original (enter terminal mode results system fd).1 := by
  rcases enter_cases terminal mode results system fd with
    ⟨_, sameAttributes, sameState, _, sameBusy⟩ | ⟨_, wasReset, tty, buf, isTerminal, entered⟩
  · by_cases isReset : system.ttystate = .RESET
    · constructor
      · intro _
        rw [sameAttributes]
        exact inOrder.reset isReset
      · intro busy
        rw [sameState] at busy
        exact absurd isReset busy
    · rw [sameBusy isReset]
      exact inOrder
  · rw [entered]
    constructor
    · exact fun isReset => absurd isReset isMode
    · intro _
      have before := inOrder.reset wasReset
      refine ⟨tty, isTerminal, congrFun before tty, fun other different => ?_⟩
      rw [← before]
      exact Function.update_of_ne different _ _

theorem InOrder.ttyReset (inOrder : InOrder terminal original system) {fd : Int}
    (meant : system.ttystate ≠ .RESET → terminal fd = none ∨
      terminal fd = terminal system.ttysavefd) :
    InOrder terminal original (ttyReset terminal system fd).1 := by
  rw [TerminalModes.ttyReset]
  by_cases isReset : system.ttystate = .RESET
  · rw [if_pos isReset]
    exact inOrder
  · rw [if_neg isReset]
    rcases inOrder.mode isReset with ⟨tty, isSaved, saved, others⟩
    rcases meant isReset with noTerminal | sameTerminal
    · rw [noTerminal]
      exact inOrder
    · rw [sameTerminal, isSaved]
      constructor
      · intro _
        funext other
        dsimp only [System.set]
        by_cases same : other = tty
        · rw [same, Function.update_self, saved]
        · rw [Function.update_of_ne same]
          exact others other same
      · exact fun busy => absurd rfl busy

theorem InOrder.perform (inOrder : InOrder terminal original system) (constants : Constants)
    {call : Call} (meant : Meant terminal system call) :
    InOrder terminal original (perform terminal constants system call).1 := by
  cases call with
  | ttyCbreak fd results => exact inOrder.enter (by decide : TtyState.CBREAK ≠ .RESET) results fd
  | ttyRaw fd results => exact inOrder.enter (by decide : TtyState.RAW ≠ .RESET) results fd
  | ttyReset fd => exact inOrder.ttyReset meant
  | ttyAtexit =>
      rw [TerminalModes.perform, ttyAtexit]
      dsimp only
      split
      · exact inOrder.ttyReset fun _ => Or.inr rfl
      · exact inOrder

end Calls

/-- As long as each reset is meant for the terminal that was put into a mode, the terminals have
their attributes wherever the state is `RESET`. -/
theorem attributes_restored {terminal : Int → Option Terminal} (constants : Constants)
    (original : Terminal → Termios) {calls : List Call}
    (meant : EveryStep (step terminal constants) (Meant terminal) (.initial original) calls) :
    EveryState (step terminal constants) (Faithful terminal constants original) (.initial original)
      calls := by
  have start : InOrder terminal original (.initial original) :=
    ⟨fun _ => rfl, fun busy => absurd rfl busy⟩
  have always : EveryState (step terminal constants) (InOrder terminal original) (.initial original)
      calls := by
    apply everyState_of_invariant _ start meant
    intro system call next inOrder isMeant stepped
    cases stepped
    exact inOrder.perform constants isMeant
  apply always.mono
  intro system inOrder
  exact ⟨inOrder.reset, fun _ failed => perform_failed constants failed⟩

/-- Constants with a bit for each flag. -/
def bits : Constants where
  ECHO := 1
  ICANON := 2
  IEXTEN := 4
  ISIG := 8
  BRKINT := 1
  ICRNL := 2
  INPCK := 4
  ISTRIP := 8
  IXON := 16
  CSIZE := 3
  PARENB := 4
  CS8 := 3
  OPOST := 1
  VMIN := 0
  VTIME := 1

def everything : Taken where
  c_iflag := BitVec.allOnes 32
  c_oflag := BitVec.allOnes 32
  c_cflag := BitVec.allOnes 32
  c_lflag := BitVec.allOnes 32
  c_cc := fun _ => true

/-- Two terminals that echo. -/
def echoing (_ : Bool) : Termios := ⟨0, 0, 0, 3, fun _ => 4⟩

def twoTerminals (fd : Int) : Option Bool :=
  if fd = 0 then some false else if fd = 1 then some true else none

/-- A terminal is put into a mode and back. -/
theorem attributes_restored_once :
    EveryState (step twoTerminals bits) (Faithful twoTerminals bits echoing) (.initial echoing)
      [.ttyCbreak 0 ⟨true, some everything, true⟩, .ttyReset 0] := by
  apply attributes_restored
  refine ⟨trivial, fun next stepped => ⟨fun _ => ?_, fun _ _ => trivial⟩⟩
  right
  cases stepped
  decide

/-- A reset on another terminal ends the mode of the first, which does not echo any more. -/
theorem other_terminal_reset : ¬EveryState (step twoTerminals bits)
    (Faithful twoTerminals bits echoing) (.initial echoing)
      [.ttyCbreak 0 ⟨true, some everything, true⟩, .ttyReset 1] := by
  intro always
  have last := ((always.2 _ rfl).2 _ rfl).reset (by decide)
  have flags := congrArg Termios.c_lflag (congrFun last false)
  revert flags
  decide

end Apue.Library.TerminalModes
