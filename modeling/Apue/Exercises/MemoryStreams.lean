import Apue.Foundation.ByteFile

/-! # Streams in memory

`fmemopen` of `exercises/fmemopen.c` with the functions that `funopen` calls for a stream. A
function is undefined (`none`) where it accesses something outside the buffer.
-/

namespace Apue.Exercises.MemoryStreams

open Apue.Foundation

def INT_MAX : Nat := 2 ^ 31 - 1

/-- The conversion to an `int`. -/
def toInt (value : Int) : Int := Int.bmod value (2 ^ 32)

/-- The conversion to a `size_t`. -/
def toSize (value : Int) : Nat := (value % 2 ^ 64).toNat

def MS_READ : Nat := 0x01
def MS_WRITE : Nat := 0x02
def MS_APPEND : Nat := 0x04
def MS_TRUNCATE : Nat := 0x08
def MS_MYBUF : Nat := 0x10

structure MemStream where
  buf : Bytes
  rsize : Nat
  vsize : Nat
  curpos : Nat
  flags : Nat

inductive Errno
  | EINVAL
  | ENOMEM
  | EBADF
  | funopen
  deriving DecidableEq

def typeToFlagsFrom (flags : Nat) : List Char → Nat
  | [] => flags
  | 'r' :: rest => if flags ≠ 0 then 0 else typeToFlagsFrom (flags ||| MS_READ) rest
  | 'w' :: rest => if flags ≠ 0 then 0 else typeToFlagsFrom (flags ||| (MS_WRITE ||| MS_TRUNCATE)) rest
  | 'a' :: rest => if flags ≠ 0 then 0 else typeToFlagsFrom (flags ||| MS_APPEND) rest
  | '+' :: rest => if flags = 0 then 0 else typeToFlagsFrom (flags ||| (MS_READ ||| MS_WRITE)) rest
  | 'b' :: rest => if flags = 0 then 0 else typeToFlagsFrom flags rest
  | _ :: _ => 0

def typeToFlags (type : List Char) : Nat := typeToFlagsFrom 0 type

/-- The loop of `find_end` at an offset, with the bytes that are left. -/
def findEndFrom (buf : Bytes) (off : Nat) : Nat → Option Nat
  | 0 => some off
  | left + 1 => do
      let byte ← buf[off]?
      if byte = 0 then return off
      findEndFrom buf (off + 1) left

def findEnd (buf : Bytes) (len : Nat) : Option Nat := findEndFrom buf 0 len

/-- What the calls in `fmemopen` return: whether there is memory for the stream, the new buffer
if there is memory for it, and whether `funopen` succeeds. -/
structure Results (size : Nat) where
  memstream : Bool
  malloc : Option (Vector Byte size)
  funopen : Bool

variable {size : Nat}

/-- The last part of `fmemopen`, with the buffer in place. -/
def finish (results : Results size) (buf : Bytes) (flags curpos : Nat) : Except Errno MemStream :=
  let vsize :=
    if flags &&& MS_APPEND ≠ 0 then curpos
    else if flags &&& MS_TRUNCATE ≠ 0 then 0
    else size
  if results.funopen then .ok { buf, rsize := size, vsize, curpos, flags } else .error .funopen

/-- `buf` is the memory of the caller, of which `size` bytes are there. -/
def fmemopen (results : Results size) (buf : Option (Vector Byte size)) (type : List Char) :
    Option (Except Errno MemStream) :=
  if size = 0 then some (.error .EINVAL)
  else if results.memstream = false then some (.error .ENOMEM)
  else
    let flags := typeToFlags type
    if flags = 0 then some (.error .EINVAL)
    else
      match buf with
      | none =>
          if flags &&& (MS_READ ||| MS_WRITE) ≠ MS_READ ||| MS_WRITE then some (.error .EINVAL)
          else
            match results.malloc with
            | none => some (.error .ENOMEM)
            | some fresh => some (finish results fresh.toList (flags ||| MS_MYBUF) 0)
      | some buf => do
          let curpos ← if flags &&& MS_APPEND ≠ 0 then findEnd buf.toList size else some 0
          return finish results buf.toList flags curpos

/-! ## The operations -/

/-- `memcpy` out of the buffer. -/
def load (buf : Bytes) (position count : Nat) : Option Bytes :=
  if position + count ≤ buf.length then some (pread buf position count) else none

/-- `memcpy` into the buffer. -/
def store (buf : Bytes) (position : Nat) (bytes : Bytes) : Option Bytes :=
  if position + bytes.length ≤ buf.length then some (pwrite buf position bytes) else none

inductive Whence
  | SEEK_SET
  | SEEK_END
  | SEEK_CUR
  deriving DecidableEq

/-- What an operation returns, with the bytes that it reads. -/
inductive Outcome
  | error (errno : Errno)
  | read (bytes : Bytes)
  | written (nw : Int)
  | position (off : Int)
  deriving DecidableEq

def mstreamRead (ms : MemStream) (len : Nat) : Option (MemStream × Outcome) :=
  if ms.flags &&& MS_READ = 0 then some (ms, .error .EBADF)
  else if ms.curpos ≥ ms.vsize then some (ms, .read [])
  else do
    let nr := toInt ↑(min len (ms.vsize - ms.curpos))
    let bytes ← load ms.buf ms.curpos (toSize nr)
    return ({ ms with curpos := ms.curpos + toSize nr }, .read bytes)

/-- The part of `mstream_write` for a stream that has grown. -/
def grow (ms : MemStream) : Option MemStream :=
  if ms.curpos > ms.vsize then do
    let ms := { ms with vsize := ms.curpos }
    if ms.flags &&& (MS_READ ||| MS_WRITE) = MS_READ ||| MS_WRITE ∧ ms.vsize < ms.rsize then do
      let planted ← store ms.buf ms.vsize [0]
      return { ms with buf := planted }
    else return ms
  else return ms

/-- The part of `mstream_write` for a stream that is not open for reading. -/
def terminate (ms : MemStream) : Option MemStream :=
  if ms.flags &&& (MS_WRITE ||| MS_APPEND) ≠ 0 ∧ ms.flags &&& MS_READ = 0 then do
    let planted ← if ms.curpos < ms.rsize then store ms.buf ms.curpos [0]
      else store ms.buf (ms.rsize - 1) [0]
    return { ms with buf := planted }
  else return ms

def mstreamWrite (ms : MemStream) (buf : Bytes) : Option (MemStream × Outcome) :=
  if ms.flags &&& (MS_APPEND ||| MS_WRITE) = 0 then some (ms, .error .EBADF)
  else do
    let off := if ms.flags &&& MS_APPEND ≠ 0 then toInt ms.vsize else toInt ms.curpos
    let nw := toInt ↑(min buf.length (toSize (ms.rsize - off)))
    let stored ← store ms.buf (toSize off) (buf.take (toSize nw))
    let ms ← grow { ms with buf := stored, curpos := toSize (off + nw) }
    let ms ← terminate ms
    return (ms, .written nw)

def mstreamSeek (ms : MemStream) (pos : Int) (whence : Whence) : MemStream × Outcome :=
  let off : Int := match whence with
    | .SEEK_SET => toInt pos
    | .SEEK_END => toInt (ms.vsize + pos)
    | .SEEK_CUR => toInt (ms.curpos + pos)
  if off < 0 ∨ off > ms.vsize then (ms, .error .EINVAL)
  else ({ ms with curpos := toSize off }, .position off)

inductive Operation
  | read (len : Nat)
  | write (buf : Bytes)
  | seek (pos : Int) (whence : Whence)

def operate (ms : MemStream) : Operation → Option (MemStream × Outcome)
  | .read len => mstreamRead ms len
  | .write buf => mstreamWrite ms buf
  | .seek pos whence => some (mstreamSeek ms pos whence)

/-! ## Bounded files -/

/-- A file with room for `capacity` bytes, and a position in it. -/
structure BoundedFile where
  capacity : Nat
  data : Bytes
  position : Nat
  readable : Bool
  writable : Bool
  appends : Bool

namespace BoundedFile

def start (file : BoundedFile) : Whence → Nat
  | .SEEK_SET => 0
  | .SEEK_END => file.data.length
  | .SEEK_CUR => file.position

def writeOffset (file : BoundedFile) : Nat := if file.appends then file.data.length else file.position

def accepted (file : BoundedFile) (bytes : Bytes) : Bytes :=
  bytes.take (file.capacity - file.writeOffset)

/-- Positions are numbers of type `int`. -/
def operate (file : BoundedFile) : Operation → BoundedFile × Outcome
  | .read len =>
      if file.readable then
        let bytes := pread file.data file.position len
        ({ file with position := file.position + bytes.length }, .read bytes)
      else (file, .error .EBADF)
  | .write bytes =>
      if file.writable then
        let accepted := file.accepted bytes
        ({ file with
            data := pwrite file.data file.writeOffset accepted
            position := file.writeOffset + accepted.length }, .written accepted.length)
      else (file, .error .EBADF)
  | .seek pos whence =>
      let target := toInt (file.start whence + pos)
      if 0 ≤ target ∧ target ≤ file.data.length then
        ({ file with position := target.toNat }, .position target)
      else (file, .error .EINVAL)

def run (file : BoundedFile) : List Operation → BoundedFile × List Outcome
  | [] => (file, [])
  | operation :: operations =>
      let (next, outcome) := file.operate operation
      let (final, outcomes) := next.run operations
      (final, outcome :: outcomes)

end BoundedFile

/-- The file that a stream with these contents stands for. -/
def MemStream.file (ms : MemStream) : BoundedFile where
  capacity := ms.rsize
  data := ms.buf.take ms.vsize
  position := ms.curpos
  readable := ms.flags &&& MS_READ ≠ 0
  writable := ms.flags &&& (MS_APPEND ||| MS_WRITE) ≠ 0
  appends := ms.flags &&& MS_APPEND ≠ 0

/-! ## Histories -/

/-- A stream with a history: the bytes that were reported as written, and where a write has since
ended with a NUL byte. -/
structure System where
  ms : MemStream
  reported : Nat → Option Byte
  terminated : Nat → Bool

def System.opened (ms : MemStream) : System := ⟨ms, fun _ => none, fun _ => false⟩

/-- Where a write to a stream that is not open for reading puts a NUL byte. -/
def MemStream.terminator (ms : MemStream) : Option Nat :=
  if ms.flags &&& MS_READ = 0 then some (if ms.curpos < ms.rsize then ms.curpos else ms.rsize - 1)
  else none

/-- `nw` bytes in front of the new position are reported. -/
def System.wrote (system : System) (ms : MemStream) (buf : Bytes) (nw : Int) : System :=
  let offset := ms.curpos - nw.toNat
  { ms := ms
    reported := fun p =>
      if offset ≤ p ∧ p < ms.curpos then buf[p - offset]? else system.reported p
    terminated := fun p =>
      ms.terminator = some p || (!(offset ≤ p && p < ms.curpos) && system.terminated p) }

def System.step (system : System) (operation : Operation) : Option (System × Outcome) := do
  let (ms, outcome) ← operate system.ms operation
  match operation, outcome with
  | .write buf, .written nw => return (system.wrote ms buf nw, outcome)
  | _, _ => return ({ system with ms := ms }, outcome)

def System.run (system : System) : List Operation → Option (System × List Outcome)
  | [] => some (system, [])
  | operation :: operations => do
      let (next, outcome) ← system.step operation
      let (final, outcomes) ← next.run operations
      return (final, outcome :: outcomes)

/-- Every byte that was reported as written is in the buffer at its position. -/
def System.Kept (system : System) : Prop :=
  ∀ p byte, system.reported p = some byte → system.ms.buf[p]? = some byte

/-- The sizes are in order, and every byte that was reported is in the buffer, unless the stream is
not open for reading and the NUL byte of a write has come in its place. -/
structure System.Sound (system : System) : Prop where
  position : system.ms.curpos ≤ system.ms.vsize
  size : system.ms.vsize ≤ system.ms.rsize
  buffer : system.ms.buf.length = system.ms.rsize
  kept : ∀ p byte, system.reported p = some byte → system.ms.buf[p]? = some byte ∨
    system.terminated p = true ∧ system.ms.flags &&& MS_READ = 0 ∧ system.ms.buf[p]? = some 0

/-! ## One operation -/

theorem toInt_of_le {value : Nat} (small : value ≤ INT_MAX) : toInt value = value := by
  rw [INT_MAX] at small
  rw [toInt, Int.bmod_def]
  omega

theorem toSize_ofNat {value : Nat} (small : value ≤ INT_MAX) : toSize value = value := by
  rw [INT_MAX] at small
  rw [toSize]
  omega

/-- The sizes of a stream are in order. -/
structure Sized (ms : MemStream) : Prop where
  positive : 0 < ms.rsize
  small : ms.rsize ≤ INT_MAX
  buffer : ms.buf.length = ms.rsize
  position : ms.curpos ≤ ms.vsize
  size : ms.vsize ≤ ms.rsize

section Offset

variable {ms : MemStream}

theorem Sized.length_data (sized : Sized ms) : ms.file.data.length = ms.vsize := by
  rw [MemStream.file, List.length_take, sized.buffer]
  exact Nat.min_eq_left sized.size

theorem Sized.writeOffset_eq (sized : Sized ms) :
    ms.file.writeOffset = if ms.flags &&& MS_APPEND ≠ 0 then ms.vsize else ms.curpos := by
  rw [BoundedFile.writeOffset, sized.length_data]
  simp only [MemStream.file, decide_eq_true_eq]

theorem Sized.writeOffset_le (sized : Sized ms) : ms.file.writeOffset ≤ ms.vsize := by
  rw [sized.writeOffset_eq]
  split
  · exact Nat.le_refl _
  · exact sized.position

end Offset

section Store

variable {buf bytes stored : Bytes} {position : Nat}

theorem store_eq (inside : position + bytes.length ≤ buf.length) :
    store buf position bytes = some (pwrite buf position bytes) := if_pos inside

theorem length_pwrite_inside (inside : position + bytes.length ≤ buf.length) :
    (pwrite buf position bytes).length = buf.length := by
  rw [length_pwrite]
  omega

/-- One byte is written. -/
theorem getElem?_pwrite_byte (inside : position < buf.length) (byte : Byte) (p : Nat) :
    (pwrite buf position [byte])[p]? = if p = position then some byte else buf[p]? := by
  rw [getElem?_pwrite (Nat.le_of_lt inside), List.length_singleton]
  by_cases here : p = position
  · subst here
    rw [if_neg (Nat.lt_irrefl p), if_pos (Nat.lt_succ_self p), Nat.sub_self, if_pos rfl]
    rfl
  · rw [if_neg here]
    by_cases before : p < position
    · rw [if_pos before]
    · rw [if_neg before, if_neg (by omega)]

end Store

section Write

variable {ms : MemStream}

theorem grow_spec (buffer : ms.buf.length = ms.rsize) :
    ∃ buf, grow ms = some { ms with buf := buf, vsize := max ms.vsize ms.curpos } ∧
      buf.length = ms.rsize ∧
      ∀ p, p < max ms.vsize ms.curpos ∨ ms.flags &&& MS_READ = 0 → buf[p]? = ms.buf[p]? := by
  rw [grow]
  by_cases grown : ms.curpos > ms.vsize
  · rw [if_pos grown, Nat.max_eq_right (Nat.le_of_lt grown)]
    dsimp only
    by_cases both : ms.flags &&& (MS_READ ||| MS_WRITE) = MS_READ ||| MS_WRITE ∧ ms.curpos < ms.rsize
    · have room : ms.curpos < ms.buf.length := by
        rw [buffer]
        exact both.2
      rw [if_pos both, store_eq room, Option.bind_eq_bind, Option.bind_some]
      refine ⟨_, rfl, (length_pwrite_inside room).trans buffer, fun p kept => ?_⟩
      rw [getElem?_pwrite_byte room]
      have different : p ≠ ms.curpos := by
        rcases kept with before | notRead
        · exact Nat.ne_of_lt before
        · have readBit := congrArg (· &&& MS_READ) both.1
          rw [Nat.and_assoc] at readBit
          have isRead : (MS_READ ||| MS_WRITE) &&& MS_READ = MS_READ := rfl
          rw [isRead, notRead] at readBit
          cases readBit
      rw [if_neg different]
    · rw [if_neg both]
      exact ⟨ms.buf, rfl, buffer, fun _ _ => rfl⟩
  · rw [if_neg grown, Nat.max_eq_left (Nat.le_of_not_lt grown)]
    exact ⟨ms.buf, rfl, buffer, fun _ _ => rfl⟩

theorem terminate_spec (buffer : ms.buf.length = ms.rsize) (positive : 0 < ms.rsize)
    (writable : ms.flags &&& (MS_APPEND ||| MS_WRITE) ≠ 0) :
    ∃ buf, terminate ms = some { ms with buf := buf } ∧ buf.length = ms.rsize ∧
      ∀ p, buf[p]? = if ms.terminator = some p then some 0 else ms.buf[p]? := by
  rw [terminate, MemStream.terminator]
  have writableBits : ms.flags &&& (MS_WRITE ||| MS_APPEND) ≠ 0 := writable
  by_cases notRead : ms.flags &&& MS_READ = 0
  · rw [if_pos ⟨writableBits, notRead⟩, if_pos notRead]
    have stores : ∀ position, position < ms.rsize → ∃ buf,
        store ms.buf position [0] = some buf ∧ buf.length = ms.rsize ∧
          ∀ p, buf[p]? = if some position = some p then some 0 else ms.buf[p]? := by
      intro position inside
      have room : position < ms.buf.length := by
        rw [buffer]
        exact inside
      refine ⟨_, store_eq room, (length_pwrite_inside room).trans buffer, fun p => ?_⟩
      rw [getElem?_pwrite_byte room]
      by_cases here : p = position
      · rw [if_pos here, if_pos (congrArg some here.symm)]
      · rw [if_neg here, if_neg fun same => here (Option.some.inj same).symm]
    by_cases room : ms.curpos < ms.rsize
    · rw [if_pos room, if_pos room]
      rcases stores ms.curpos room with ⟨buf, stored, length, contents⟩
      rw [stored, Option.bind_eq_bind, Option.bind_some]
      exact ⟨buf, rfl, length, contents⟩
    · rw [if_neg room, if_neg room]
      rcases stores (ms.rsize - 1) (Nat.sub_lt positive Nat.one_pos) with
        ⟨buf, stored, length, contents⟩
      rw [stored, Option.bind_eq_bind, Option.bind_some]
      exact ⟨buf, rfl, length, contents⟩
  · rw [if_neg fun both => notRead both.2, if_neg notRead]
    exact ⟨ms.buf, rfl, buffer, fun p => (if_neg nofun).symm⟩

theorem mstreamWrite_spec (sized : Sized ms)
    (writable : ms.flags &&& (MS_APPEND ||| MS_WRITE) ≠ 0) (bytes : Bytes) :
    ∃ after, mstreamWrite ms bytes =
        some (after, .written (ms.file.accepted bytes).length) ∧
      Sized after ∧ after.rsize = ms.rsize ∧ after.flags = ms.flags ∧
      after.curpos = ms.file.writeOffset + (ms.file.accepted bytes).length ∧
      after.vsize = max ms.vsize after.curpos ∧
      (∀ p, after.terminator = some p → after.buf[p]? = some 0) ∧
      ∀ p, after.terminator ≠ some p → p < after.vsize ∨ ms.flags &&& MS_READ = 0 →
        after.buf[p]? = (pwrite ms.buf ms.file.writeOffset (ms.file.accepted bytes))[p]? := by
  have isOffset : (if ms.flags &&& MS_APPEND ≠ 0 then toInt ms.vsize else toInt ms.curpos) =
      (ms.file.writeOffset : Int) := by
    rw [sized.writeOffset_eq]
    split
    · exact toInt_of_le (sized.size.trans sized.small)
    · exact toInt_of_le (sized.position.trans (sized.size.trans sized.small))
  have offsetSmall : ms.file.writeOffset ≤ INT_MAX :=
    sized.writeOffset_le.trans (sized.size.trans sized.small)
  have offsetInside := sized.writeOffset_le.trans sized.size
  have room : toSize (ms.rsize - ms.file.writeOffset) = ms.rsize - ms.file.writeOffset := by
    rw [← Int.ofNat_sub offsetInside]
    exact toSize_ofNat ((Nat.sub_le _ _).trans sized.small)
  have isCount : min bytes.length (ms.rsize - ms.file.writeOffset) = (ms.file.accepted bytes).length := by
    rw [BoundedFile.accepted, List.length_take, Nat.min_comm]
    rfl
  have countFits : ms.file.writeOffset + (ms.file.accepted bytes).length ≤ ms.rsize := by
    rw [← isCount]
    omega
  have countSmall : (ms.file.accepted bytes).length ≤ INT_MAX := by
    have small := sized.small
    omega
  have isTaken : bytes.take (ms.file.accepted bytes).length = ms.file.accepted bytes := by
    rw [BoundedFile.accepted, List.take_eq_take_iff, List.length_take]
    omega
  have isPosition : toSize (ms.file.writeOffset + (ms.file.accepted bytes).length) =
      ms.file.writeOffset + (ms.file.accepted bytes).length := by
    rw [← Int.natCast_add]
    exact toSize_ofNat (countFits.trans sized.small)
  have inBuffer : ms.file.writeOffset + (ms.file.accepted bytes).length ≤ ms.buf.length := by
    rw [sized.buffer]
    exact countFits
  rw [mstreamWrite, if_neg writable, isOffset]
  dsimp only
  rw [room, isCount, toInt_of_le countSmall, toSize_ofNat countSmall, toSize_ofNat offsetSmall, isTaken,
    store_eq inBuffer, isPosition]
  simp only [Option.bind_eq_bind, Option.bind_some]
  rcases @grow_spec { ms with
      buf := pwrite ms.buf ms.file.writeOffset (ms.file.accepted bytes)
      curpos := ms.file.writeOffset + (ms.file.accepted bytes).length }
    ((length_pwrite_inside inBuffer).trans sized.buffer) with
    ⟨grown, isGrown, grownLength, grownContents⟩
  rw [isGrown, Option.bind_some]
  dsimp only at grownLength grownContents
  rcases @terminate_spec { ms with
      buf := grown
      curpos := ms.file.writeOffset + (ms.file.accepted bytes).length
      vsize := max ms.vsize (ms.file.writeOffset + (ms.file.accepted bytes).length) }
    grownLength sized.positive writable with ⟨ended, isEnded, endedLength, endedContents⟩
  rw [isEnded, Option.bind_some]
  refine ⟨_, rfl, ?_, rfl, rfl, rfl, rfl, ?_, ?_⟩
  · exact {
      positive := sized.positive
      small := sized.small
      buffer := endedLength
      position := Nat.le_max_right _ _
      size := Nat.max_le.mpr ⟨sized.size, countFits⟩ }
  · intro p isEnd
    exact (endedContents p).trans (if_pos isEnd)
  · intro p notEnd kept
    exact ((endedContents p).trans (if_neg notEnd)).trans (grownContents p kept)

end Write

theorem mstreamRead_spec {ms : MemStream} (sized : Sized ms) (readable : ms.flags &&& MS_READ ≠ 0)
    (len : Nat) :
    mstreamRead ms len = some
      ({ ms with curpos := ms.curpos + min len (ms.vsize - ms.curpos) },
        .read (pread ms.buf ms.curpos (min len (ms.vsize - ms.curpos)))) := by
  rw [mstreamRead, if_neg readable]
  by_cases atEnd : ms.curpos ≥ ms.vsize
  · rw [if_pos atEnd, Nat.sub_eq_zero_of_le atEnd, Nat.min_zero, Nat.add_zero, pread, List.take_zero]
  · have small : min len (ms.vsize - ms.curpos) ≤ INT_MAX :=
      (Nat.min_le_right _ _).trans ((Nat.sub_le _ _).trans (sized.size.trans sized.small))
    have inside : ms.curpos + min len (ms.vsize - ms.curpos) ≤ ms.buf.length := by
      have inFile := sized.size
      rw [sized.buffer]
      omega
    rw [if_neg atEnd]
    dsimp only
    rw [toInt_of_le small, toSize_ofNat small, load, if_pos inside]
    rfl

/-! ## The simulation -/

/-- A stream stands for a file: their contents are the same but where a write has put a NUL byte. -/
structure Follows (system : System) (file : BoundedFile) : Prop where
  sized : Sized system.ms
  capacity : file.capacity = system.ms.rsize
  position : file.position = system.ms.curpos
  length : file.data.length = system.ms.vsize
  readable : file.readable = decide (system.ms.flags &&& MS_READ ≠ 0)
  writable : file.writable = decide (system.ms.flags &&& (MS_APPEND ||| MS_WRITE) ≠ 0)
  appends : file.appends = decide (system.ms.flags &&& MS_APPEND ≠ 0)
  same : ∀ p < system.ms.vsize, system.terminated p = false → system.ms.buf[p]? = file.data[p]?
  kept : ∀ p byte, system.reported p = some byte → file.data[p]? = some byte
  planted : ∀ p, system.terminated p = true →
    system.ms.flags &&& MS_READ = 0 ∧ system.ms.buf[p]? = some 0

section Follows

variable {system : System} {file : BoundedFile}

theorem Follows.sound (follows : Follows system file) : system.Sound where
  position := follows.sized.position
  size := follows.sized.size
  buffer := follows.sized.buffer
  kept := by
    intro p byte isReported
    have inData := follows.kept p byte isReported
    rcases List.getElem?_eq_some_iff.mp inData with ⟨inside, _⟩
    rw [follows.length] at inside
    cases isTerminated : system.terminated p with
    | false =>
        left
        rw [follows.same p inside isTerminated]
        exact inData
    | true => exact Or.inr ⟨rfl, follows.planted p isTerminated⟩

/-- A stream that is open for reading has the contents of the file. -/
theorem Follows.pread_eq (follows : Follows system file)
    (readable : system.ms.flags &&& MS_READ ≠ 0) (len : Nat) :
    pread system.ms.buf system.ms.curpos (min len (system.ms.vsize - system.ms.curpos)) =
      pread file.data file.position len := by
  apply List.ext_getElem?
  intro index
  rw [getElem?_pread, getElem?_pread, follows.position]
  have notTerminated : ∀ p, system.terminated p = false := by
    intro p
    cases isTerminated : system.terminated p with
    | false => rfl
    | true => exact absurd (follows.planted p isTerminated).1 readable
  by_cases inside : system.ms.curpos + index < system.ms.vsize
  · rw [follows.same _ inside (notTerminated _)]
    by_cases asked : index < len
    · rw [if_pos (by omega), if_pos asked]
    · rw [if_neg (by omega), if_neg asked]
  · have outside : file.data[system.ms.curpos + index]? = none := by
      rw [List.getElem?_eq_none_iff, follows.length]
      exact Nat.le_of_not_lt inside
    rw [if_neg (by omega), outside, ite_self]

theorem Follows.writeOffset_eq (follows : Follows system file) :
    file.writeOffset = system.ms.file.writeOffset := by
  rw [follows.sized.writeOffset_eq, BoundedFile.writeOffset, follows.length, follows.position,
    follows.appends]
  simp only [decide_eq_true_eq]

theorem Follows.accepted_eq (follows : Follows system file) (bytes : Bytes) :
    file.accepted bytes = system.ms.file.accepted bytes := by
  rw [BoundedFile.accepted, BoundedFile.accepted, follows.writeOffset_eq, follows.capacity]
  rfl

/-- Another position. -/
theorem Follows.move (follows : Follows system file) {position : Nat}
    (inside : position ≤ system.ms.vsize) :
    Follows { system with ms := { system.ms with curpos := position } }
      { file with position := position } where
  sized := { follows.sized with position := inside }
  capacity := follows.capacity
  position := rfl
  length := follows.length
  readable := follows.readable
  writable := follows.writable
  appends := follows.appends
  same := follows.same
  kept := follows.kept
  planted := follows.planted

theorem Follows.read (follows : Follows system file) (len : Nat) :
    ∃ next, system.step (.read len) = some (next, (file.operate (.read len)).2) ∧
      Follows next (file.operate (.read len)).1 := by
  rw [BoundedFile.operate, System.step, operate]
  by_cases readable : system.ms.flags &&& MS_READ ≠ 0
  · have isReadable : file.readable = true := by
      rw [follows.readable]
      exact decide_eq_true readable
    have isLength : (pread file.data file.position len).length =
        min len (system.ms.vsize - system.ms.curpos) := by
      rw [length_pread, follows.length, follows.position]
    have inFile := follows.sized.position
    rw [if_pos isReadable, mstreamRead_spec follows.sized readable, follows.pread_eq readable len]
    dsimp only
    rw [isLength, follows.position]
    exact ⟨_, rfl, follows.move (by omega)⟩
  · have notReadable : ¬file.readable = true := by
      rw [follows.readable, decide_eq_true_eq]
      exact readable
    rw [if_neg notReadable, mstreamRead, if_pos (not_not.mp readable)]
    exact ⟨_, rfl, follows⟩

theorem Follows.mstreamSeek_eq (follows : Follows system file) (pos : Int) (whence : Whence) :
    mstreamSeek system.ms pos whence =
      if toInt (file.start whence + pos) < 0 ∨ toInt (file.start whence + pos) > system.ms.vsize then
        (system.ms, .error .EINVAL)
      else
        ({ system.ms with curpos := toSize (toInt (file.start whence + pos)) },
          .position (toInt (file.start whence + pos))) := by
  cases whence with
  | SEEK_SET =>
      have isZero : ((file.start .SEEK_SET : Nat) : Int) + pos = pos := Int.zero_add pos
      rw [isZero]
      rfl
  | SEEK_END =>
      rw [BoundedFile.start, follows.length]
      rfl
  | SEEK_CUR =>
      rw [BoundedFile.start, follows.position]
      rfl

theorem Follows.seek (follows : Follows system file) (pos : Int) (whence : Whence) :
    ∃ next, system.step (.seek pos whence) = some (next, (file.operate (.seek pos whence)).2) ∧
      Follows next (file.operate (.seek pos whence)).1 := by
  rw [BoundedFile.operate, System.step, operate, follows.mstreamSeek_eq, follows.length]
  dsimp only
  generalize toInt (file.start whence + pos) = target
  by_cases inside : 0 ≤ target ∧ target ≤ system.ms.vsize
  · have small : target.toNat ≤ INT_MAX := by
      have inFile := follows.sized.size
      have fits := follows.sized.small
      omega
    have isPosition : toSize target = target.toNat := by
      have asNat : target = (target.toNat : Int) := (Int.toNat_of_nonneg inside.1).symm
      rw [asNat]
      exact toSize_ofNat small
    rw [if_pos inside, if_neg (by omega), isPosition]
    exact ⟨_, rfl, follows.move (by omega)⟩
  · rw [if_neg inside, if_pos (by omega)]
    exact ⟨_, rfl, follows⟩

theorem System.wrote_terminated {system : System} {after : MemStream} {bytes : Bytes} {nw : Int}
    {p : Nat} : (system.wrote after bytes nw).terminated p = true ↔
      after.terminator = some p ∨
        ¬(after.curpos - nw.toNat ≤ p ∧ p < after.curpos) ∧ system.terminated p = true := by
  rw [System.wrote]
  simp only [Bool.or_eq_true, Bool.and_eq_true, Bool.not_eq_true', decide_eq_true_eq,
    Bool.and_eq_false_iff, decide_eq_false_iff_not, not_and_or]

/-- What a write does to the stream and to the file. -/
theorem Follows.wrote (follows : Follows system file) {bytes : Bytes} {after : MemStream}
    (sized : Sized after) (sameSize : after.rsize = system.ms.rsize)
    (sameFlags : after.flags = system.ms.flags)
    (isPosition : after.curpos = file.writeOffset + (file.accepted bytes).length)
    (isSize : after.vsize = max system.ms.vsize after.curpos)
    (ended : ∀ p, after.terminator = some p → after.buf[p]? = some 0)
    (contents : ∀ p, after.terminator ≠ some p →
      p < after.vsize ∨ system.ms.flags &&& MS_READ = 0 →
        after.buf[p]? = (pwrite system.ms.buf file.writeOffset (file.accepted bytes))[p]?) :
    Follows (system.wrote after bytes (file.accepted bytes).length)
      { file with
        data := pwrite file.data file.writeOffset (file.accepted bytes)
        position := file.writeOffset + (file.accepted bytes).length } := by
  have offsetInside : file.writeOffset ≤ file.data.length := by
    rw [follows.writeOffset_eq, follows.length]
    exact follows.sized.writeOffset_le
  have isOffset : after.curpos - ((file.accepted bytes).length : Int).toNat = file.writeOffset := by
    rw [isPosition, Int.toNat_natCast, Nat.add_sub_cancel]
  have inBuffer : file.writeOffset ≤ system.ms.buf.length := by
    have inFile := follows.sized.size
    have isLength := follows.length
    rw [follows.sized.buffer]
    omega
  have isFront : ∀ p, file.writeOffset ≤ p → p < after.curpos →
      (file.accepted bytes)[p - file.writeOffset]? = bytes[p - file.writeOffset]? := by
    intro p from_ upto
    have inCount : p - file.writeOffset < (file.accepted bytes).length := by omega
    rw [BoundedFile.accepted, List.length_take] at inCount
    rw [BoundedFile.accepted, List.getElem?_take_of_lt (by omega)]
  exact {
    sized := sized
    capacity := follows.capacity.trans sameSize.symm
    position := isPosition.symm
    length := by
      rw [length_pwrite, follows.length, ← isPosition]
      exact isSize.symm
    readable := by
      rw [System.wrote, sameFlags]
      exact follows.readable
    writable := by
      rw [System.wrote, sameFlags]
      exact follows.writable
    appends := by
      rw [System.wrote, sameFlags]
      exact follows.appends
    same := by
      intro p inside notTerminated
      have stillNot : ¬(system.wrote after bytes (file.accepted bytes).length).terminated p = true := by
        rw [notTerminated]
        exact Bool.false_ne_true
      rw [System.wrote_terminated, isOffset, not_or] at stillNot
      have isByte := contents p stillNot.1 (Or.inl inside)
      rw [getElem?_pwrite inBuffer] at isByte
      rw [getElem?_pwrite offsetInside]
      have sameByte : system.terminated p = false → p < system.ms.vsize →
          system.ms.buf[p]? = file.data[p]? := fun isFalse before => follows.same p before isFalse
      apply isByte.trans
      have inFile := follows.length
      dsimp only [System.wrote] at inside
      by_cases before : p < file.writeOffset
      · rw [if_pos before, if_pos before]
        exact sameByte (by simpa [before] using stillNot.2) (by omega)
      · rw [if_neg before, if_neg before]
        by_cases covered : p < file.writeOffset + (file.accepted bytes).length
        · rw [if_pos covered, if_pos covered]
        · rw [if_neg covered, if_neg covered]
          rw [← isPosition] at covered
          exact sameByte (by simpa [covered] using stillNot.2) (by omega)
    kept := by
      intro p byte isReported
      rw [getElem?_pwrite offsetInside, ← isPosition]
      dsimp only [System.wrote] at isReported
      rw [isOffset] at isReported
      by_cases before : p < file.writeOffset
      · rw [if_neg (by omega)] at isReported
        rw [if_pos before]
        exact follows.kept p byte isReported
      · rw [if_neg before]
        by_cases covered : p < after.curpos
        · rw [if_pos ⟨Nat.le_of_not_lt before, covered⟩] at isReported
          rw [if_pos covered, isFront p (Nat.le_of_not_lt before) covered]
          exact isReported
        · rw [if_neg fun both => covered both.2] at isReported
          rw [if_neg covered]
          exact follows.kept p byte isReported
    planted := by
      intro p isTerminated
      rw [System.wrote_terminated, isOffset] at isTerminated
      by_cases isEnd : after.terminator = some p
      · refine ⟨?_, ended p isEnd⟩
        rw [MemStream.terminator] at isEnd
        by_cases notRead : after.flags &&& MS_READ = 0
        · exact notRead
        · rw [if_neg notRead] at isEnd
          cases isEnd
      · rcases isTerminated.resolve_left isEnd with ⟨outside, before⟩
        rcases follows.planted p before with ⟨notRead, isZero⟩
        dsimp only [System.wrote]
        rw [sameFlags, contents p isEnd (Or.inr notRead), getElem?_pwrite inBuffer, ← isPosition]
        refine ⟨notRead, ?_⟩
        by_cases inFront : p < file.writeOffset
        · rw [if_pos inFront]
          exact isZero
        · rw [if_neg inFront, if_neg fun covered => outside ⟨Nat.le_of_not_lt inFront, covered⟩]
          exact isZero }

theorem Follows.write (follows : Follows system file) (bytes : Bytes) :
    ∃ next, system.step (.write bytes) = some (next, (file.operate (.write bytes)).2) ∧
      Follows next (file.operate (.write bytes)).1 := by
  rw [BoundedFile.operate, System.step, operate]
  by_cases writable : system.ms.flags &&& (MS_APPEND ||| MS_WRITE) ≠ 0
  · have isWritable : file.writable = true := by
      rw [follows.writable]
      exact decide_eq_true writable
    rcases mstreamWrite_spec follows.sized writable bytes with
      ⟨after, written, sized, sameSize, sameFlags, isPosition, isSize, ended, contents⟩
    rw [← follows.accepted_eq bytes, ← follows.writeOffset_eq] at isPosition contents
    rw [← follows.accepted_eq bytes] at written
    rw [if_pos isWritable, written]
    exact ⟨_, rfl, follows.wrote sized sameSize sameFlags isPosition isSize ended contents⟩
  · have notWritable : ¬file.writable = true := by
      rw [follows.writable, decide_eq_true_eq]
      exact writable
    rw [if_neg notWritable, mstreamWrite, if_pos (not_not.mp writable)]
    exact ⟨_, rfl, follows⟩

end Follows

theorem Follows.step {system : System} {file : BoundedFile} (follows : Follows system file) :
    ∀ operation, ∃ next, system.step operation = some (next, (file.operate operation).2) ∧
      Follows next (file.operate operation).1
  | .read len => follows.read len
  | .write bytes => follows.write bytes
  | .seek pos whence => follows.seek pos whence

theorem Follows.run : ∀ {operations : List Operation} {system : System} {file : BoundedFile},
    Follows system file →
    ∃ final, system.run operations = some (final, (file.run operations).2) ∧
      Follows final (file.run operations).1
  | [], system, _, follows => ⟨system, rfl, follows⟩
  | operation :: operations, system, file, follows => by
      rcases follows.step operation with ⟨next, stepped, followsNext⟩
      rcases @Follows.run operations _ _ followsNext with ⟨final, ran, followsFinal⟩
      refine ⟨final, ?_, followsFinal⟩
      rw [System.run, stepped, Option.bind_eq_bind, Option.bind_some]
      dsimp only
      rw [ran]
      rfl

/-! ## Opening -/

theorem findEndFrom_spec (buf : Bytes) : ∀ {left off : Nat}, off + left = buf.length →
    ∃ final, findEndFrom buf off left = some final ∧ final ≤ buf.length
  | 0, off, total => ⟨off, rfl, Nat.le_of_eq total⟩
  | left + 1, off, total => by
      have inside : off < buf.length := by omega
      rw [findEndFrom, List.getElem?_eq_getElem inside, Option.bind_eq_bind, Option.bind_some]
      split
      · exact ⟨off, rfl, Nat.le_of_lt inside⟩
      · exact findEndFrom_spec buf (by omega)

theorem finish_sized (results : Results size) {buf : Bytes} {flags curpos : Nat}
    (positive : 0 < size) (small : size ≤ INT_MAX) (length : buf.length = size)
    (inside : curpos ≤ size) (start : flags &&& MS_APPEND ≠ 0 ∨ curpos = 0) {ms : MemStream}
    (opened : finish results buf flags curpos = .ok ms) : Sized ms := by
  rw [finish] at opened
  cases isOpen : results.funopen with
  | false =>
      rw [isOpen] at opened
      cases opened
  | true =>
      rw [isOpen, if_pos rfl] at opened
      cases opened
      refine ⟨positive, small, length, ?_, ?_⟩
      · dsimp only
        split
        · exact Nat.le_refl _
        · rename_i notAppend
          rw [start.resolve_left notAppend]
          exact Nat.zero_le _
      · dsimp only
        split
        · exact inside
        · split
          · exact Nat.zero_le _
          · exact Nat.le_refl _

/-- Opening stays inside the buffer, and the sizes of a stream are in order at its start. -/
theorem fmemopen_sized (small : size ≤ INT_MAX) (results : Results size)
    (buf : Option (Vector Byte size)) (type : List Char) :
    ∃ opened, fmemopen results buf type = some opened ∧ ∀ ms, opened = .ok ms → Sized ms := by
  rw [fmemopen]
  split
  · exact ⟨_, rfl, nofun⟩
  · rename_i notEmpty
    have positive := Nat.pos_of_ne_zero notEmpty
    split
    · exact ⟨_, rfl, nofun⟩
    · dsimp only
      split
      · exact ⟨_, rfl, nofun⟩
      · cases buf with
        | none =>
            dsimp only
            split
            · exact ⟨_, rfl, nofun⟩
            · cases results.malloc with
              | none => exact ⟨_, rfl, nofun⟩
              | some fresh =>
                  refine ⟨_, rfl, fun ms opened => ?_⟩
                  exact finish_sized results positive small Vector.length_toList
                    (Nat.zero_le _) (Or.inr rfl) opened
        | some buf =>
            dsimp only
            split
            · rename_i appends
              have total : 0 + size = buf.toList.length := by
                rw [Vector.length_toList, Nat.zero_add]
              rcases findEndFrom_spec buf.toList total with ⟨curpos, found, inside⟩
              rw [findEnd, found, Option.bind_eq_bind, Option.bind_some]
              rw [Vector.length_toList] at inside
              refine ⟨_, rfl, fun ms opened => ?_⟩
              exact finish_sized results positive small Vector.length_toList inside
                (Or.inl appends) opened
            · refine ⟨_, rfl, fun ms opened => ?_⟩
              exact finish_sized results positive small Vector.length_toList
                (Nat.zero_le _) (Or.inr rfl) opened

theorem Follows.opened {ms : MemStream} (sized : Sized ms) : Follows (.opened ms) ms.file where
  sized := sized
  capacity := rfl
  position := rfl
  length := sized.length_data
  readable := rfl
  writable := rfl
  appends := rfl
  same := fun _ inside _ => (List.getElem?_take_of_lt inside).symm
  kept := nofun
  planted := nofun

/-- In every mode and with any operations a stream stays inside its buffer and returns what a
bounded file returns. -/
theorem memstream_follows {size : Nat} (small : size ≤ INT_MAX) (results : Results size)
    (buf : Option (Vector Byte size)) (type : List Char) :
    ∃ opened, fmemopen results buf type = some opened ∧
      ∀ ms, opened = .ok ms → ∀ operations, ∃ system,
        (System.opened ms).run operations = some (system, (ms.file.run operations).2) ∧
        system.Sound := by
  rcases fmemopen_sized small results buf type with ⟨opened, ran, sized⟩
  refine ⟨opened, ran, fun ms isOpen operations => ?_⟩
  rcases @Follows.run operations _ _ (Follows.opened (sized ms isOpen)) with
    ⟨system, completed, follows⟩
  exact ⟨system, completed, follows.sound⟩

/-- A full buffer that was opened for appending. -/
theorem memstream_follows_append :
    ∃ opened, fmemopen ⟨true, none, true⟩ (some #v[97, 0, 0, 0]) ['a', '+'] = some opened ∧
      ∀ ms, opened = .ok ms → ∀ operations, ∃ system,
        (System.opened ms).run operations = some (system, (ms.file.run operations).2) ∧
        system.Sound := by
  apply memstream_follows
  decide

def overwritten : List Operation := [.write [97, 98, 99], .seek 0 .SEEK_SET, .write [120]]

/-- With `w` the NUL byte of a short write takes the place of a byte that was written before. -/
theorem memstream_loses_byte : ∃ opened ∈ fmemopen ⟨true, none, true⟩ (some #v[0, 0, 0, 0]) ['w'],
    ∃ ms ∈ opened.toOption, ∃ ran ∈ (System.opened ms).run overwritten,
      ran.2 = [.written 3, .position 0, .written 1] ∧ ¬ran.1.Kept := by
  have lost : ∃ opened ∈ fmemopen ⟨true, none, true⟩ (some #v[0, 0, 0, 0]) ['w'],
      ∃ ms ∈ opened.toOption, ∃ ran ∈ (System.opened ms).run overwritten,
        ran.2 = [.written 3, .position 0, .written 1] ∧
          ran.1.reported 1 = some 98 ∧ ran.1.ms.buf[1]? = some 0 := by decide
  rcases lost with ⟨opened, isOpened, ms, isStream, ran, isRun, outcomes, reported, isZero⟩
  refine ⟨opened, isOpened, ms, isStream, ran, isRun, outcomes, fun kept => ?_⟩
  have still := kept 1 98 reported
  rw [isZero] at still
  cases still

end Apue.Exercises.MemoryStreams
