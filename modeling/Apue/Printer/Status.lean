import Apue.Foundation.Always
import Apue.Foundation.Ascii

/-! # The response of the printer

`printer_status` of `printer/printd.c` with `readmore`. The response buffer `bp` is
only used through the accesses below, whose indices count from `bp`; `i` is `cp - bp`
wherever it is read, so that one variable stands for both. The loops are cut off
after a number of rounds.
-/

namespace Apue.Printer.Status

open Apue.Foundation Ascii

inductive Access
  | load (index : Nat)
  | store (index : Nat) (byte : Byte)
  | tread (offset count : Nat)
  | realloc (size : Nat)
  /-- No access: it marks what the variables are, `i` where it has a value. -/
  | counts (i : Option Nat) (datsz bufsz : Nat)
  /-- No access: it marks where the search for the end of the header takes a round. -/
  | lookForEnd (i datsz : Nat)
  | outOfRounds

def AccessResponse : Access → Type
  | .load _ => Byte
  | .store _ _ => Unit
  | .tread _ _ => Option Nat
  | .realloc _ => Unit
  | .counts _ _ _ => Unit
  | .lookForEnd _ _ => Unit
  | .outOfRounds => Empty

abbrev Reader : Type → Type := Program Access AccessResponse

namespace Reader

variable {Result : Type}

def load (index : Nat) : Reader Byte := .perform (Access.load index)

def store (index : Nat) (byte : Byte) : Reader Unit := .perform (Access.store index byte)

/-- `none` stands for an error, the timeout and the end of file. -/
def tread (offset count : Nat) : Reader (Option Nat) := .perform (Access.tread offset count)

def realloc (size : Nat) : Reader Unit := .perform (Access.realloc size)

def counts (i : Option Nat) (datsz bufsz : Nat) : Reader Unit :=
  .perform (Access.counts i datsz bufsz)

def lookForEnd (i datsz : Nat) : Reader Unit := .perform (Access.lookForEnd i datsz)

def outOfRounds : Reader Result := .call Access.outOfRounds fun never : Empty => nomatch never

end Reader

/-! ## The buffer -/

/-- What `malloc` has returned is in `memory` with whatever it held before. `received`
counts the bytes since the buffer was last filled from its start, and `pieces` are
what is still on its way. -/
structure Buffer where
  memory : Nat → Byte
  size : Nat
  received : Nat
  pieces : List Bytes

def IOBUFSZ : Nat := 8192

def Buffer.initial (memory : Nat → Byte) (pieces : List Bytes) : Buffer where
  memory := memory
  size := IOBUFSZ
  received := 0
  pieces := pieces

def Buffer.put (buffer : Buffer) (index : Nat) (byte : Byte) : Buffer :=
  { buffer with memory := Function.update buffer.memory index byte }

@[simp] theorem Buffer.put_size (buffer : Buffer) (index : Nat) (byte : Byte) :
    (buffer.put index byte).size = buffer.size := rfl

@[simp] theorem Buffer.put_received (buffer : Buffer) (index : Nat) (byte : Byte) :
    (buffer.put index byte).received = buffer.received := rfl

/-- A piece, as far as it fits, at an offset of the buffer. -/
def Buffer.fill (buffer : Buffer) (offset : Nat) (part : Bytes) : Buffer :=
  { buffer with
    memory := fun index =>
      if offset ≤ index then part.getD (index - offset) (buffer.memory index)
      else buffer.memory index
    received := (if offset = 0 then 0 else buffer.received) + part.length }

/-- An access outside the allocated memory is undefined. -/
def Buffer.answer (buffer : Buffer) : (access : Access) → Option (AccessResponse access × Buffer)
  | .load index => if index < buffer.size then some (buffer.memory index, buffer) else none
  | .store index byte => if index < buffer.size then some ((), buffer.put index byte) else none
  | .tread offset count =>
      match buffer.pieces with
      | [] => some ((none : Option Nat), buffer)
      | piece :: pieces =>
          let part := piece.take count
          if part = [] then some ((none : Option Nat), buffer)
          else if offset + part.length ≤ buffer.size then
            some (some part.length, { buffer.fill offset part with
              pieces := if piece.length ≤ count then pieces else piece.drop count :: pieces })
          else none
  | .realloc size => some ((), { buffer with size := size })
  | .counts _ _ _ => some ((), buffer)
  | .lookForEnd _ _ => some ((), buffer)
  | .outOfRounds => none

def Answers (access : Access) (buffer : Buffer) (response : AccessResponse access)
    (after : Buffer) : Prop :=
  buffer.answer access = some (response, after)

instance decidableAlways {Result : Type} (allowed : Access → Buffer → Prop)
    (post : Result → Buffer → Prop) [∀ access buffer, Decidable (allowed access buffer)]
    [∀ result buffer, Decidable (post result buffer)] :
    ∀ (program : Reader Result) (buffer : Buffer),
      Decidable (program.Always Answers allowed post buffer)
  | .done result, buffer => inferInstanceAs (Decidable (post result buffer))
  | .call access next, buffer =>
      have : Decidable (∀ response after, Answers access buffer response after →
          (next response).Always Answers allowed post after) :=
        match found : buffer.answer access with
        | none => isTrue fun _ _ answers => nomatch found.symm.trans answers
        | some (response, after) =>
            have := decidableAlways allowed post (next response) after
            decidable_of_iff ((next response).Always Answers allowed post after)
              ⟨fun always _ _ answers => by
                cases found.symm.trans answers
                exact always, fun all => all response after found⟩
      inferInstanceAs (Decidable (_ ∧ _))

/-! ## The functions -/

def CR : Byte := 13

def LF : Byte := 10

def HTTP_INFO (code : Int) : Bool := 100 ≤ code && code ≤ 199

def HTTP_SUCCESS (code : Int) : Bool := 200 ≤ code && code ≤ 299

def STATCLASS_OK (status : Int) : Bool := 0x0000 ≤ status && status ≤ 0x00ff

def CONTENT_LENGTH : Bytes := text "Content-Length:"

open Reader

/-- `while (test(*cp)) cp++`. -/
def skipWhile (test : Byte → Bool) : Nat → Nat → Reader Nat
  | 0, _ => outOfRounds
  | rounds + 1, cp => do
      let byte ← load cp
      if test byte then skipWhile test rounds (cp + 1) else return cp

/-- The C string at `cp`, which `atoi` and `log_msg` read. -/
def readString : Nat → Nat → Reader Bytes
  | 0, _ => outOfRounds
  | rounds + 1, cp => do
      let byte ← load cp
      if byte = 0 then return []
      else return byte :: (← readString rounds (cp + 1))

def toLower (byte : Byte) : Byte := if 65 ≤ byte ∧ byte ≤ 90 then byte + 32 else byte

/-- Whether `strncasecmp` finds the bytes `expected`, none of which is NUL, at `cp`. -/
def strncasecmp (cp : Nat) : Bytes → Reader Bool
  | [] => return true
  | other :: expected => do
      let byte ← load cp
      if toLower byte = toLower other then strncasecmp (cp + 1) expected else return false

def treadMore (off bsz : Nat) : Reader (Option Nat × Nat) := do
  match ← tread off (bsz - off) with
  | some nr => return (some (off + nr), bsz)
  | none => return (none, bsz)

/-- The result and the new value of `*bszp`. -/
def readmore (off bsz : Nat) : Reader (Option Nat × Nat) :=
  if off ≥ bsz then do
    realloc (bsz + IOBUFSZ)
    treadMore off (bsz + IOBUFSZ)
  else treadMore off bsz

structure Cursor where
  i : Nat
  datsz : Nat
  bufsz : Nat

def addMore (cursor : Cursor) : Option Nat × Nat → Reader (Option Cursor)
  | (none, _) => return none
  | (some nr, bufsz) => do
      counts (some cursor.i) (cursor.datsz + nr) bufsz
      return some { cursor with datsz := cursor.datsz + nr, bufsz }

/-- The block "get more header", which stands in four places behind different
conditions; `none` is `goto out`. -/
def getMoreIf (needed : Bool) (cursor : Cursor) : Reader (Option Cursor) :=
  if needed then readmore cursor.i cursor.bufsz >>= addMore cursor else return some cursor

/-- The loop `while (*cp != 'C' && *cp != 'c' && i < datsz)`. -/
def seekC (datsz bufsz : Nat) : Nat → Nat → Reader Nat
  | 0, _ => outOfRounds
  | rounds + 1, i => do
      counts (some i) datsz bufsz
      let byte ← load i
      if byte ≠ 67 ∧ byte ≠ 99 ∧ i < datsz then seekC datsz bufsz rounds (i + 1) else return i

/-- The loop that searches for the Content-Length, with `len`. -/
def findContentLength : Nat → Cursor → Reader (Option (Cursor × Int))
  | 0, _ => outOfRounds
  | rounds + 1, cursor => do
      let i ← seekC cursor.datsz cursor.bufsz rounds cursor.i
      let cursor := { cursor with i }
      match ← getMoreIf (cursor.i ≥ cursor.datsz) cursor with
      | none => return none
      | some cursor => do
          if ← strncasecmp cursor.i CONTENT_LENGTH then do
            let contentlen ← skipWhile isSpace rounds (cursor.i + 15)
            let cp ← skipWhile isDigit rounds contentlen
            store cp 0
            counts (some (cp + 1)) cursor.datsz cursor.bufsz
            let len := atoi (← readString rounds contentlen)
            return some ({ cursor with i := cp + 1 }, len)
          else findContentLength rounds { cursor with i := cursor.i + 1 }

/-- The inner loop of the search for the end of the header: `found` and `i`. -/
def seekEnd (datsz bufsz : Nat) : Nat → Nat → Reader (Bool × Nat)
  | 0, _ => outOfRounds
  | rounds + 1, i => do
      counts (some i) datsz bufsz
      if i + 2 < datsz then do
        if (← load i) = LF then
          if (← load (i + 1)) = CR then
            if (← load (i + 2)) = LF then
              counts (some (i + 3)) datsz bufsz
              return (true, i + 3)
            else seekEnd datsz bufsz rounds (i + 1)
          else seekEnd datsz bufsz rounds (i + 1)
        else seekEnd datsz bufsz rounds (i + 1)
      else return (false, i)

/-- The loop `while (!found)`. -/
def findEnd : Nat → Cursor → Reader (Option Cursor)
  | 0, _ => outOfRounds
  | rounds + 1, cursor => do
      lookForEnd cursor.i cursor.datsz
      let (found, i) ← seekEnd cursor.datsz cursor.bufsz rounds cursor.i
      let cursor := { cursor with i }
      match ← getMoreIf (cursor.i ≥ cursor.datsz) cursor with
      | none => return none
      | some cursor => if found then return some cursor else findEnd rounds cursor

/-- `ntohs` of two bytes in memory. -/
def loadShort (index : Nat) : Reader Int := do
  let high ← load index
  let low ← load (index + 1)
  return high.toNat * 256 + low.toNat

/-- `ntohl` of four bytes in memory, as an `int32_t`. -/
def loadLong (index : Nat) : Reader Int := do
  let high ← loadShort index
  let low ← loadShort (index + 2)
  return (high * 65536 + low).bmod (2 ^ 32)

/-- The IPP response header at `cp`. -/
def ippHeader (jobid : Int) (cursor : Cursor) : Reader Bool := do
  let status ← loadShort (cursor.i + 2)
  let requestId ← loadLong (cursor.i + 4)
  return decide (requestId = jobid) && STATCLASS_OK status

/-- `printer_status` behind the Content-Length. -/
def ippResponse (rounds : Nat) (jobid len : Int) (cursor : Cursor) : Reader Bool := do
  match ← getMoreIf (cursor.i ≥ cursor.datsz) cursor with
  | none => return false
  | some cursor => do
      match ← findEnd rounds cursor with
      | none => return false
      | some cursor => do
          match ← getMoreIf ((cursor.datsz : Int) - cursor.i < len) cursor with
          | none => return false
          | some cursor => ippHeader jobid cursor

/-- `printer_status` behind an HTTP status that is a success. -/
def ippStatus (rounds : Nat) (jobid : Int) (cursor : Cursor) : Reader Bool := do
  match ← findContentLength rounds cursor with
  | none => return false
  | some (cursor, len) => ippResponse rounds jobid len cursor

def isInLine (byte : Byte) : Bool := byte != CR && byte != LF

/-- The body of the loop, behind `tread`; `again` is its next round. -/
def readResponse (rounds : Nat) (jobid : Int) (nr : Nat) (again : Reader Bool) : Reader Bool := do
  counts none nr IOBUFSZ
  let statcode ← skipWhile isSpace rounds 8
  let cp ← skipWhile isDigit rounds statcode
  if cp = statcode then do
    let _ ← readString rounds 0
    again
  else do
    store cp 0
    let reason := cp + 1
    let cp ← skipWhile isInLine rounds reason
    store cp 0
    let code ← readString rounds statcode
    if HTTP_INFO (atoi code) then again
    else if HTTP_SUCCESS (atoi code) then ippStatus rounds jobid ⟨cp, nr, IOBUFSZ⟩
    else do
      store nr 0
      let _ ← readString rounds reason
      return false

def printerStatus : Nat → Int → Reader Bool
  | 0, _ => outOfRounds
  | rounds + 1, jobid => do
      match ← tread 0 IOBUFSZ with
      | none => return false
      | some nr => readResponse rounds jobid nr (printerStatus rounds jobid)

end Apue.Printer.Status
