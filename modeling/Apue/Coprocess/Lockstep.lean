import Apue.Coprocess.Addition
import Apue.Foundation.Dialogues
import Mathlib.Data.List.Forall2

/-! # A filter and its coprocess

`ipc1/pipe4.c` sends the lines of its input to `ipc1/add2.c` through one pipe, and prints what
comes back through the other one. Each of the two waits for the other after every message.
-/

namespace Apue.Coprocess

open Apue.Foundation Ascii

/-! ## The parent -/

inductive Line
  | line (bytes : Bytes)
  | atEnd
  | failed

inductive Written
  | count (nw : Nat)
  | failed
  | sigpipe

inductive ParentCall
  | fgets
  | write (text : Bytes)
  | read
  | fputs (text : Bytes)
  | exit
  /-- The reply fills the array, which has no room for the NUL byte. -/
  | overrun
  /-- The loop does not end within its bound. -/
  | outOfRounds

/-- There is no text where `read` fails, and an empty one where the other end is closed. -/
def ParentResponse : ParentCall → Type
  | .fgets => Line
  | .write _ => Written
  | .read => Option Bytes
  | .fputs _ => Bool
  | .exit => Unit
  | .overrun => Empty
  | .outOfRounds => Empty

/-- How `pipe4` ends. -/
inductive Ending
  | finished
  | childClosed
  | failed
  | sigpipe
  deriving DecidableEq

abbrev Parent : Type := Program ParentCall ParentResponse Ending

def leave (ending : Ending) : Parent := .call ParentCall.exit fun _ => .done ending

def sigPipe : Parent := .call (ParentCall.fputs (text "SIGPIPE caught\n")) fun _ => leave .sigpipe

def print (reply : Bytes) (rest : Parent) : Parent :=
  .call (ParentCall.fputs (cString reply)) fun printed : Bool => if printed then rest else leave .failed

/-- What comes behind `read`. -/
def received (rest : Parent) : Option Bytes → Parent
  | none => leave .failed
  | some [] => leave .childClosed
  | some reply =>
      if reply.length = MAXLINE then .call ParentCall.overrun fun never : Empty => never.elim
      else print reply rest

def receive (rest : Parent) : Parent := .call ParentCall.read fun reply : Option Bytes => received rest reply

/-- The body of the loop. -/
def converse (line : Bytes) (rest : Parent) : Parent :=
  .call (ParentCall.write (cString line)) fun written : Written =>
    match written with
    | .count nw => if nw = (cString line).length then receive rest else leave .failed
    | .failed => leave .failed
    | .sigpipe => sigPipe

def pipe4 : Nat → Parent
  | 0 => .call ParentCall.outOfRounds fun never : Empty => never.elim
  | rounds + 1 => .call ParentCall.fgets fun got : Line =>
      match got with
      | .line line => converse line (pipe4 rounds)
      | .atEnd => leave .finished
      | .failed => leave .failed

/-! ## The child -/

inductive ChildCall
  | read
  | write (text : Bytes)
  | exit
  | overrun
  /-- A number does not fit into an `int`. -/
  | overflow
  | outOfRounds

def ChildResponse : ChildCall → Type
  | .read => Option Bytes
  | .write _ => Written
  | .exit => Unit
  | .overrun => Empty
  | .overflow => Empty
  | .outOfRounds => Empty

abbrev Child : Type := Program ChildCall ChildResponse Unit

def quit : Child := .call ChildCall.exit fun _ => .done ()

def overflow : Child := .call ChildCall.overflow fun never : Empty => never.elim

def respond (reply : Bytes) (rest : Child) : Child :=
  .call (ChildCall.write reply) fun written : Written =>
    match written with
    | .count nw => if nw = reply.length then rest else quit
    | _ => quit

/-- The body of the loop. -/
def handle (line : Bytes) (rest : Child) : Child :=
  if line.length = MAXLINE then .call ChildCall.overrun fun never : Empty => never.elim
  else
    match answer (cString line) with
    | none => overflow
    | some reply => respond reply rest

/-- What comes behind `read`. -/
def proceed (rest : Child) : Option Bytes → Child
  | none => quit
  | some [] => quit
  | some line => handle line rest

def add2 : Nat → Child
  | 0 => .call ChildCall.outOfRounds fun never : Empty => never.elim
  | rounds + 1 => .call ChildCall.read fun got : Option Bytes => proceed (add2 rounds) got

theorem received_of_ne {reply : Bytes} (rest : Parent) (isText : reply ≠ [])
    (short : reply.length < MAXLINE) : received rest (some reply) = print reply rest := by
  rcases List.exists_cons_of_ne_nil isText with ⟨byte, others, rfl⟩
  exact if_neg (Nat.ne_of_lt short)

theorem proceed_of_ne {line : Bytes} (rest : Child) (isText : line ≠ []) :
    proceed rest (some line) = handle line rest := by
  rcases List.exists_cons_of_ne_nil isText with ⟨byte, others, rfl⟩
  rfl

/-! ## The pipes -/

/-- What `fgets` returns with room for `count` bytes in front of the NUL byte. -/
def firstLine : Nat → Bytes → Bytes
  | 0, _ => []
  | _, [] => []
  | count + 1, byte :: rest => if byte = newline then [byte] else byte :: firstLine count rest

/-- The input of the parent, the bytes in the two pipes, which ends of them are open, and what the
parent has printed. -/
structure Pipes where
  input : Bytes
  requests : Bytes
  replies : Bytes
  parentOpen : Bool
  childOpen : Bool
  output : Bytes

section Outcomes

-- `capacity` is the size of a pipe. Calls fail only where there are `faults`.
variable (capacity : Nat) (faults : Prop)

inductive ParentOutcomes : (call : ParentCall) → Pipes → ParentResponse call → Pipes → Prop
  | fgets {before : Pipes} (isMore : before.input ≠ []) :
      ParentOutcomes .fgets before (.line (firstLine (MAXLINE - 1) before.input) : Line)
        { before with input := before.input.drop (firstLine (MAXLINE - 1) before.input).length }
  | fgetsEnd {before : Pipes} (isEnd : before.input = []) :
      ParentOutcomes .fgets before (.atEnd : Line) before
  | fgetsFails (faulty : faults) (before : Pipes) : ParentOutcomes .fgets before (.failed : Line) before
  | write {text : Bytes} {before : Pipes} (isOpen : before.childOpen = true ∨ text = [])
      (fits : before.requests.length + text.length ≤ capacity) :
      ParentOutcomes (.write text) before (.count text.length : Written)
        { before with requests := before.requests ++ text }
  | writeFails {text : Bytes} (faulty : faults) (before : Pipes) :
      ParentOutcomes (.write text) before (.failed : Written) before
  | sigpipe {text : Bytes} {before : Pipes} (isClosed : before.childOpen = false) (isText : text ≠ []) :
      ParentOutcomes (.write text) before (.sigpipe : Written) before
  | read {before : Pipes} (isThere : before.replies ≠ []) :
      ParentOutcomes .read before (some (before.replies.take MAXLINE) : Option Bytes)
        { before with replies := before.replies.drop MAXLINE }
  | readEnd {before : Pipes} (isEmpty : before.replies = []) (isClosed : before.childOpen = false) :
      ParentOutcomes .read before (some [] : Option Bytes) before
  | readFails (faulty : faults) (before : Pipes) :
      ParentOutcomes .read before (none : Option Bytes) before
  | fputs {text : Bytes} (before : Pipes) :
      ParentOutcomes (.fputs text) before true { before with output := before.output ++ text }
  | fputsFails {text : Bytes} (faulty : faults) (printed : Nat) (before : Pipes) :
      ParentOutcomes (.fputs text) before false
        { before with output := before.output ++ text.take printed }
  | exit (before : Pipes) : ParentOutcomes .exit before () { before with parentOpen := false }

inductive ChildOutcomes : (call : ChildCall) → Pipes → ChildResponse call → Pipes → Prop
  | read {before : Pipes} (isThere : before.requests ≠ []) :
      ChildOutcomes .read before (some (before.requests.take MAXLINE) : Option Bytes)
        { before with requests := before.requests.drop MAXLINE }
  | readEnd {before : Pipes} (isEmpty : before.requests = []) (isClosed : before.parentOpen = false) :
      ChildOutcomes .read before (some [] : Option Bytes) before
  | readFails (faulty : faults) (before : Pipes) :
      ChildOutcomes .read before (none : Option Bytes) before
  | write {text : Bytes} {before : Pipes} (isOpen : before.parentOpen = true)
      (fits : before.replies.length + text.length ≤ capacity) :
      ChildOutcomes (.write text) before (.count text.length : Written)
        { before with replies := before.replies ++ text }
  | writeFails {text : Bytes} (faulty : faults) (before : Pipes) :
      ChildOutcomes (.write text) before (.failed : Written) before
  | sigpipe {text : Bytes} {before : Pipes} (isClosed : before.parentOpen = false) :
      ChildOutcomes (.write text) before (.sigpipe : Written) before
  | exit (before : Pipes) : ChildOutcomes .exit before () { before with childOpen := false }

end Outcomes

end Apue.Coprocess
