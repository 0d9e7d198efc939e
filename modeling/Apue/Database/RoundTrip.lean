import Apue.Database.Alone

/-! # An index record that is written and read

`_db_writeidx` and `_db_readidx` share only the constants for the widths of their fields.
Nothing is known about the file in which they meet.
-/

namespace Apue.Database

open Apue.Foundation Ascii

/-- The offset at which a write begins. -/
inductive Begins (file : Bytes) : Whence → Nat → Prop
  | set (offset : Nat) : Begins file (.set offset) offset
  | append : Begins file .append file.length

/-- `_db_writedat` sets both fields before `_db_writeidx` is called. -/
def DB.withData (db : DB) (body : Body) : DB :=
  { db with datoff := body.datoff, datlen := body.datlen }

/-- From the current offset a record is read with the argument 0. -/
def ReadsAt (argument : Nat) (db : DB) (offset : Nat) : Prop :=
  argument = offset ∧ offset ≠ 0 ∨ argument = 0 ∧ db.idxPosition = offset

/-- What the structure holds when the record was read from its first byte to its last. -/
structure DB.Holds (db : DB) (pointer : Pointer) (body : Body) (offset : Nat) : Prop where
  ptrval : db.ptrval = pointer.1
  key : db.idxbuf = body.key
  datoff : db.datoff = body.datoff
  datlen : db.datlen = body.datlen
  idxoff : db.idxoff = offset
  position : db.idxPosition = offset + (IndexItem.record pointer body).encode.length

/-! ## Writing -/

/-- The bytes of an index record. -/
def recordBytes (pointer : Pointer) (key : Bytes) (datoff datlen : Nat) : Bytes :=
  encodePointer pointer.1 ++
    padLeft IDXLEN_SZ (decimal (recordText key datoff datlen).length) ++
      recordText key datoff datlen

section Writing

variable {db : DB} {state : State Unit} {key : Bytes} {datoff datlen offset : Nat}
  {pointer : Pointer} {whence : Whence}

theorem recordBytes_length (pointer : Pointer) (fits : TextFits key datoff datlen) :
    (recordBytes pointer key datoff datlen).length =
      PTR_SZ + IDXLEN_SZ + (recordText key datoff datlen).length := by
  have lengthField : (padLeft IDXLEN_SZ (decimal (recordText key datoff datlen).length)).length =
      IDXLEN_SZ := by
    apply padLeft_length
    rw [decimal_length_le_iff (by decide)]
    exact Nat.lt_of_le_of_lt fits.2 (by decide)
  rw [recordBytes, List.length_append, List.length_append, encodePointer_length, lengthField]

theorem writeidx_text (isDatoff : db.datoff = datoff) (isDatlen : db.datlen = datlen) :
    key ++ SEP :: printInt db.datoff ++ SEP :: decimal db.datlen ++ [NEWLINE] =
      recordText key datoff datlen := by
  rw [isDatoff, isDatlen, printInt_natCast]
  rfl

theorem Pointer.in_range (pointer : Pointer) :
    ¬ ((pointer.1 : Int) < 0 ∨ (pointer.1 : Int) > PTR_MAX) := by
  have := pointer.2
  omega

/-- A text that fits is written with its pointer. -/
theorem alone_writeidx {post : Unit → DB → State Unit → Prop}
    (begins : Begins (state.files .idx) whence offset)
    (isDatoff : db.datoff = datoff) (isDatlen : db.datlen = datlen)
    (fits : TextFits key datoff datlen)
    (continued : ∀ (db' : DB) (after : State Unit), db'.idxoff = offset →
      db'.chainoff = db.chainoff →
      db'.idxPosition = offset + (recordBytes pointer key datoff datlen).length →
      after.files = Function.update state.files .idx
        (pwrite (state.files .idx) offset (recordBytes pointer key datoff datlen)) →
      post () db' after) :
    Alone post (dbWriteidx key whence pointer.1) db state := by
  have inside : ¬ ((recordText key datoff datlen).length < IDXLEN_MIN ∨
      (recordText key datoff datlen).length > IDXLEN_MAX) := by
    rw [TextFits] at fits
    omega
  unfold dbWriteidx
  apply alone_bind
  apply alone_modify
  simp only [pointer.in_range, if_false]
  apply alone_bind
  apply alone_modify
  apply alone_bind
  apply alone_get
  simp only [writeidx_text isDatoff isDatlen, inside, if_false, printInt_natCast]
  cases begins with
  | set offset =>
      apply alone_bind
      apply alone_lseekIdx
      apply alone_bind
      apply alone_modify
      apply alone_bind
      apply alone_writeIdx
      exact alone_pure (continued _ _ rfl rfl rfl rfl)
  | append =>
      apply alone_bind
      apply alone_lock
      apply alone_bind
      apply alone_size
      apply alone_bind
      apply alone_lseekIdx
      apply alone_bind
      apply alone_modify
      apply alone_bind
      apply alone_writeIdx
      apply alone_unlock
      exact continued _ _ rfl rfl rfl rfl

theorem alone_writeidx_body {post : Unit → DB → State Unit → Prop} {body : Body}
    (begins : Begins (state.files .idx) whence offset)
    (continued : ∀ (written : DB) (after : State Unit),
      written.idxPosition = offset + (IndexItem.record pointer body).encode.length →
      after.files .idx =
        pwrite (state.files .idx) offset (IndexItem.record pointer body).encode →
      post () written after) :
    Alone post (dbWriteidx body.key whence pointer.1) (db.withData body) state := by
  apply alone_writeidx begins rfl rfl ⟨body.length_ge, body.length_le⟩
  intro written after _ _ position files
  refine continued written after position ?_
  rw [files, Function.update_self]
  rfl

end Writing

/-! ## Reading -/

section Reading

variable {pointer : Pointer} {body : Body} {db : DB} {state : State Unit} {offset : Nat}

theorem alone_readidx_written {argument : Nat}
    (here : ReadsAt argument db offset) {file : Bytes}
    (written : state.files .idx = pwrite file offset (IndexItem.record pointer body).encode) :
    ∃ read, runAlone (dbReadidx argument) db state = .ok ((pointer.1, read), state) ∧
      read.Holds pointer body offset := by
  have size := encode_record_length pointer body
  have whole : (IndexItem.record pointer body).encode = recordFront pointer body ++ body.text := rfl
  have front : pread (state.files .idx) offset (PTR_SZ + IDXLEN_SZ) = recordFront pointer body := by
    have read := @pread_pwrite file (IndexItem.record pointer body).encode offset 0
      (PTR_SZ + IDXLEN_SZ) (by omega)
    rw [Nat.add_zero] at read
    rw [written, read, whole, pread, List.drop_zero]
    exact List.take_left' (recordFront_length pointer body)
  have text : pread (state.files .idx) (offset + (PTR_SZ + IDXLEN_SZ)) body.text.length =
      body.text := by
    rw [written, pread_pwrite (by omega), whole, pread, ← recordFront_length pointer body,
      List.drop_left, List.take_length]
  have alone : Alone (fun (result : Int) read after => result = pointer.1 ∧ after = state ∧
      read.Holds pointer body offset) (dbReadidx argument) db state := by
    apply alone_readidx_bytes front text here
    refine ⟨rfl, rfl, ⟨rfl, rfl, rfl, rfl, rfl, ?_⟩⟩
    rw [size]
    exact Nat.add_assoc _ _ _
  rcases alone with ⟨_, read, _, ran, rfl, rfl, holds⟩
  exact ⟨read, ran, holds⟩

end Reading

/-- The record is read back from where it is written, and is written over by as many bytes when
it has another pointer and a blank key. -/
def RoundTrip (pointer other : Pointer) (body : Body) (db : DB) (state : State Unit)
    (whence : Whence) (offset : Nat) : Prop :=
  ∃ written after,
    runAlone (dbWriteidx body.key whence pointer.1) (db.withData body) state =
      .ok (((), written), after) ∧
    (∀ reader argument, ReadsAt argument reader offset →
      ∃ read, runAlone (dbReadidx argument) reader after = .ok ((pointer.1, read), after) ∧
        read.Holds pointer body offset ∧ read.idxPosition = written.idxPosition) ∧
    ∀ writer : DB, ∃ rewritten last,
      runAlone (dbWriteidx (List.replicate body.key.length SPACE) (.set offset) other.1)
          (writer.withData body) after = .ok (((), rewritten), last) ∧
        rewritten.idxPosition = written.idxPosition ∧
        (last.files .idx).length = (after.files .idx).length

theorem writeidx_readidx (pointer other : Pointer) (body : Body) (db : DB) (state : State Unit)
    {whence : Whence} {offset : Nat} (begins : Begins (state.files .idx) whence offset) :
    RoundTrip pointer other body db state whence offset := by
  have wrote : Alone (fun _ written after =>
      written.idxPosition = offset + (IndexItem.record pointer body).encode.length ∧
      after.files .idx = pwrite (state.files .idx) offset (IndexItem.record pointer body).encode)
      (dbWriteidx body.key whence pointer.1) (db.withData body) state :=
    alone_writeidx_body begins fun _ _ position file => ⟨position, file⟩
  rcases wrote with ⟨_, written, after, ran, position, file⟩
  refine ⟨written, after, ran, ?_, ?_⟩
  · intro reader argument here
    rcases alone_readidx_written here file with ⟨read, ranBack, holds⟩
    exact ⟨read, ranBack, holds, holds.position.trans position.symm⟩
  · intro writer
    have blankKey : body.blank.key = List.replicate body.key.length SPACE := List.map_const' ..
    have size : (IndexItem.record other body.blank).encode.length =
        (IndexItem.record pointer body).encode.length := by
      rw [encode_record_length, encode_record_length, body.blank_text_length]
    have rewrote : Alone (fun _ rewritten last =>
        rewritten.idxPosition = offset + (IndexItem.record other body.blank).encode.length ∧
        last.files .idx = pwrite (after.files .idx) offset (IndexItem.record other body.blank).encode)
        (dbWriteidx body.blank.key (.set offset) other.1) (writer.withData body.blank) after :=
      alone_writeidx_body (.set offset) fun _ _ position file => ⟨position, file⟩
    rcases rewrote with ⟨_, rewritten, last, ranAgain, positionAgain, fileAgain⟩
    rw [blankKey] at ranAgain
    refine ⟨rewritten, last, ranAgain, ?_, ?_⟩
    · rw [positionAgain, size, position]
    · rw [fileAgain, length_pwrite, file, length_pwrite, size]
      omega

/-- A key of digits, a blank and a newline. -/
def newlineKey : Body where
  key := [49, 32, 50, 10, 51]
  datoff := 70
  datlen := 12
  noNul := ne_of_all (by decide)
  noSep := ne_of_all (by decide)
  datlen_pos := by decide
  datlen_le := by decide
  length_ge := by decide
  length_le := by decide

theorem writeidx_readidx_newlineKey :
    RoundTrip ⟨1200, by decide⟩ ⟨PTR_MAX, Nat.le_refl _⟩ newlineKey dbAlloc (stateWith [] []) .append
      0 :=
  writeidx_readidx _ _ newlineKey dbAlloc (stateWith [] []) .append

end Apue.Database
