import Apue.Foundation.Ascii

/-! # How descriptors and errors are passed

The functions `send_fd`, `send_err` and `recv_fd` of `lib`. A message on the stream
socket ends with a NUL byte and a status byte, and a descriptor travels with the
NUL byte. The stream has no other frames: a call of `recvmsg` returns what is there,
up to the size of the buffer.
-/

namespace Apue.Opend

open Apue.Foundation Ascii

def MAXLINE : Nat := 4096

/-- A byte on the stream, and the descriptor that is passed with it. -/
structure Cell where
  byte : Byte
  descriptor : Option Int
  deriving DecidableEq

def plainCells (text : Bytes) : List Cell := text.map fun byte => ⟨byte, none⟩

@[simp] theorem plainCells_bytes (text : Bytes) : (plainCells text).map Cell.byte = text := by
  rw [plainCells, List.map_map]
  exact List.map_id text

@[simp] theorem plainCells_length (text : Bytes) : (plainCells text).length = text.length :=
  List.length_map _

/-- The status byte for an error, which is never zero. -/
def errorStatus (fdToSend : Int) : Byte :=
  let status := UInt8.ofNat ((-fdToSend) % 256).toNat
  if status = 0 then 1 else status

/-- What `send_fd` writes. -/
def sendFd (fdToSend : Int) : List Cell :=
  if fdToSend < 0 then [⟨0, none⟩, ⟨errorStatus fdToSend, none⟩]
  else [⟨0, some fdToSend⟩, ⟨0, none⟩]

/-- What `send_err` writes. -/
def sendErr (errcode : Int) (msg : Bytes) : List Cell :=
  plainCells (cString msg) ++ sendFd (if errcode ≥ 0 then -1 else errcode)

/-! ## Receiving -/

/-- The variables of the loop of `recv_fd` that looks for the NUL byte. -/
structure Scan where
  nr : Int
  status : Int
  newfd : Int

/-- The loop from the cells at `ptr` on; `none` when `err_dump` ends the process.
The status byte is the last one of the piece, so that it is there. -/
def scan (control : Option Int) : List Cell → Nat → Scan → Option Scan
  | [], _, found => some found
  | cell :: rest, ptr, found =>
      if ptr < found.nr then
        if cell.byte = 0 then
          if (ptr : Int) + 1 ≠ found.nr - 1 then none
          else
            let status := ((rest.head?.map Cell.byte).getD 0).toNat
            if status = 0 then
              match control with
              | none => none
              | some newfd => scan control rest (ptr + 1) ⟨found.nr - 2, status, newfd⟩
            else scan control rest (ptr + 1) ⟨found.nr - 2, status, -status⟩
        else scan control rest (ptr + 1) found
      else some found

/-- How a call of `recv_fd` ends, if it does. -/
inductive Received
  | returned (value : Int)
  | dumped
  | waiting
  deriving DecidableEq

/-- `recv_fd` on the pieces that `recvmsg` returns, and what it has passed to
`userfunc`. An empty piece is the end of the connection; a call that fails returns
-1 as well. -/
def recvFd (userfunc : Bytes → Int) : List (List Cell) → List Bytes → Received × List Bytes
  | [], passed => (.waiting, passed)
  | piece :: pieces, passed =>
      if piece = [] then (.returned (-1), passed)
      else
        match scan (piece.findSome? Cell.descriptor) piece 0 ⟨piece.length, -1, 0⟩ with
        | none => (.dumped, passed)
        | some found =>
            let text := (piece.map Cell.byte).take found.nr.toNat
            if found.nr > 0 ∧ userfunc text ≠ found.nr then (.returned (-1), passed ++ [text])
            else
              let passed := if found.nr > 0 then passed ++ [text] else passed
              if found.status ≥ 0 then (.returned found.newfd, passed)
              else recvFd userfunc pieces passed

/-- The pieces that the calls of `recvmsg` return make up what was sent. -/
structure Cut (sent : List Cell) (pieces : List (List Cell)) : Prop where
  whole : pieces.flatten = sent
  nonempty : ∀ piece ∈ pieces, piece ≠ []
  fits : ∀ piece ∈ pieces, piece.length ≤ MAXLINE

/-- The last call of `recvmsg` returns the NUL byte with the status byte. -/
def StatusTogether (pieces : List (List Cell)) : Prop :=
  ∀ piece ∈ pieces.getLast?, 2 ≤ piece.length

/-! ## One piece -/

variable {control : Option Int} {message piece sent : List Cell} {pieces : List (List Cell)}
  {userfunc : Bytes → Int} {passed : List Bytes}

/-- A part of a message: bytes other than NUL, and no descriptor. -/
def PlainText (message : List Cell) : Prop :=
  ∀ cell ∈ message, cell.byte ≠ 0 ∧ cell.descriptor = none

/-- The loop goes on through the bytes of a message. -/
theorem scan_message (plain : PlainText message) (rest : List Cell) (ptr : Nat) (found : Scan)
    (inside : (ptr + message.length : Int) ≤ found.nr) :
    scan control (message ++ rest) ptr found = scan control rest (ptr + message.length) found := by
  induction message generalizing ptr with
  | nil => rfl
  | cons cell message hypothesis =>
      rw [List.length_cons] at inside ⊢
      rw [List.cons_append, scan, if_pos (by omega), if_neg (plain cell List.mem_cons_self).1,
        hypothesis (fun other member => plain other (List.mem_cons_of_mem _ member)) (ptr + 1)
          (by omega)]
      congr 1
      omega

theorem findSome_plain (plain : PlainText message) (rest : List Cell) :
    (message ++ rest).findSome? Cell.descriptor = rest.findSome? Cell.descriptor := by
  induction message with
  | nil => rfl
  | cons cell message hypothesis =>
      rw [List.cons_append, List.findSome?_cons, (plain cell List.mem_cons_self).2]
      exact hypothesis fun other member => plain other (List.mem_cons_of_mem _ member)

/-- What `recv_fd` returns for the last two cells. -/
def finalValue (first second : Cell) : Int :=
  if second.byte = 0 then first.descriptor.getD 0 else -second.byte.toNat

/-- The last two cells of a message carry a descriptor or an error. -/
structure FinalCells (first second : Cell) : Prop where
  nul : first.byte = 0
  carries : second.byte = 0 → first.descriptor.isSome = true

/-- The loop ends behind the status byte. -/
theorem scan_end (control : Option Int) (rest : List Cell) {ptr : Nat} {found : Scan}
    (ended : found.nr ≤ ptr) : scan control rest ptr found = some found := by
  cases rest with
  | nil => rfl
  | cons cell rest => rw [scan, if_neg (by omega)]

theorem scan_final {first second : Cell} (final : FinalCells first second)
    (plain : PlainText message) :
    scan ((message ++ [first, second]).findSome? Cell.descriptor) (message ++ [first, second]) 0
        ⟨(message ++ [first, second]).length, -1, 0⟩ =
      some ⟨message.length, second.byte.toNat, finalValue first second⟩ := by
  have lengths : ((message ++ [first, second]).length : Int) = message.length + 2 := by simp
  have behind : (message.length : Int) + 2 - 2 = message.length := by omega
  have inside : ((0 : Nat) + message.length : Int) ≤ message.length + 2 := by omega
  have here : (((0 + message.length : Nat)) : Int) < message.length + 2 := by omega
  have isLast : ¬ (((0 + message.length : Nat)) : Int) + 1 ≠ (message.length + 2 : Int) - 1 := by
    omega
  rw [lengths, scan_message plain _ _ _ inside, scan, if_pos here, if_pos final.nul, if_neg isLast,
    findSome_plain plain, finalValue]
  rcases eq_or_ne second.byte 0 with isZero | notZero
  · rcases Option.isSome_iff_exists.mp (final.carries isZero) with ⟨descriptor, carried⟩
    rw [List.findSome?_cons, carried, if_pos isZero]
    dsimp only [List.head?_cons, Option.map_some, Option.getD_some]
    rw [isZero, if_pos UInt8.toNat_zero, scan_end _ _ (by dsimp only; omega), behind]
  · have notStatus : ¬ second.byte.toNat = 0 := fun same => notZero (UInt8.toNat_inj.mp same)
    rw [if_neg notZero]
    dsimp only [List.head?_cons, Option.map_some, Option.getD_some]
    rw [if_neg notStatus, scan_end _ _ (by dsimp only; omega), behind]

/-- A NUL byte at the end of a piece is taken for an error. -/
theorem scan_nulLast {first : Cell} (isNul : first.byte = 0) (plain : PlainText message) :
    scan control (message ++ [first]) 0 ⟨(message ++ [first]).length, -1, 0⟩ = none := by
  have lengths : ((message ++ [first]).length : Int) = message.length + 1 := by simp
  have inside : ((0 : Nat) + message.length : Int) ≤ message.length + 1 := by omega
  have here : (((0 + message.length : Nat)) : Int) < message.length + 1 := by omega
  have notLast : (((0 + message.length : Nat)) : Int) + 1 ≠ (message.length + 1 : Int) - 1 := by
    omega
  rw [lengths, scan_message plain _ _ _ inside, scan, if_pos here, if_pos isNul, if_pos notLast]

theorem scan_plain (plain : PlainText message) :
    scan control message 0 ⟨message.length, -1, 0⟩ = some ⟨message.length, -1, 0⟩ := by
  have inside : ((0 : Nat) + message.length : Int) ≤ message.length := by omega
  have scanned := @scan_message control message plain [] 0 ⟨message.length, -1, 0⟩ inside
  rw [List.append_nil] at scanned
  exact scanned

/-! ## All the pieces -/

def Accepts (userfunc : Bytes → Int) : Prop := ∀ text, userfunc text = text.length

theorem accepts_message (accepts : Accepts userfunc) (message : List Cell) :
    ¬ ((message.length : Int) > 0 ∧ userfunc (message.map Cell.byte) ≠ message.length) := by
  rintro ⟨_, refused⟩
  rw [accepts, List.length_map] at refused
  exact refused rfl

theorem recvFd_plain (accepts : Accepts userfunc) (nonempty : message ≠ [])
    (plain : PlainText message) :
    recvFd userfunc (message :: pieces) passed =
      recvFd userfunc pieces (passed ++ [message.map Cell.byte]) := by
  have positive : (message.length : Int) > 0 := by
    have := List.length_pos_iff.mpr nonempty
    omega
  rw [recvFd, if_neg nonempty, scan_plain plain]
  dsimp only
  rw [Int.toNat_natCast, List.take_of_length_le (by simp), if_neg (accepts_message accepts message),
    if_pos positive, if_neg (by omega)]

theorem recvFd_nulLast {first : Cell} (isNul : first.byte = 0) (plain : PlainText message) :
    recvFd userfunc ((message ++ [first]) :: pieces) passed = (.dumped, passed) := by
  rw [recvFd, if_neg (by simp), scan_nulLast isNul plain]

theorem recvFd_final {first second : Cell} (accepts : Accepts userfunc)
    (final : FinalCells first second) (plain : PlainText message) :
    recvFd userfunc ((message ++ [first, second]) :: pieces) passed =
      (.returned (finalValue first second),
        if message = [] then passed else passed ++ [message.map Cell.byte]) := by
  have text : ((message ++ [first, second]).map Cell.byte).take message.length =
      message.map Cell.byte := by
    rw [List.map_append, List.take_left' (by simp)]
  have statusThere : ((second.byte.toNat : Int)) ≥ 0 := by omega
  rw [recvFd, if_neg (by simp), scan_final final plain]
  dsimp only
  rw [Int.toNat_natCast, text, if_neg (accepts_message accepts message), if_pos statusThere]
  congr 1
  cases message with
  | nil => rfl
  | cons cell message =>
      rw [if_neg (List.cons_ne_nil _ _), if_pos (by simp)]

theorem statusTogether_cons {piece : List Cell} (more : pieces ≠ []) :
    StatusTogether (piece :: pieces) ↔ StatusTogether pieces := by
  rw [StatusTogether, StatusTogether, List.getLast?_cons_of_ne_nil more]

/-- The pieces of a message are put together again, unless its last two bytes come
apart. -/
theorem recvFd_pieces {first second : Cell} (accepts : Accepts userfunc)
    (final : FinalCells first second) (plain : PlainText message)
    (whole : pieces.flatten = message ++ [first, second]) (nonempty : ∀ piece ∈ pieces, piece ≠ []) :
    (StatusTogether pieces → ∃ text, recvFd userfunc pieces passed =
        (.returned (finalValue first second), passed ++ text) ∧
          text.flatten = message.map Cell.byte) ∧
      (¬ StatusTogether pieces → (recvFd userfunc pieces passed).1 = .dumped) := by
  induction pieces generalizing message passed with
  | nil => exact absurd whole.symm (by simp)
  | cons piece pieces hypothesis =>
      have nonemptyHere := nonempty piece List.mem_cons_self
      have nonemptyRest : ∀ other ∈ pieces, other ≠ [] :=
        fun other member => nonempty other (List.mem_cons_of_mem _ member)
      -- The piece ends within the message, and the rest goes on with it.
      have goesOn : ∀ rest, message = piece ++ rest → pieces.flatten = rest ++ [first, second] →
          (StatusTogether (piece :: pieces) → ∃ text, recvFd userfunc (piece :: pieces) passed =
              (.returned (finalValue first second), passed ++ text) ∧
                text.flatten = message.map Cell.byte) ∧
            (¬ StatusTogether (piece :: pieces) →
              (recvFd userfunc (piece :: pieces) passed).1 = .dumped) := by
        rintro rest rfl behind
        have more : pieces ≠ [] := by
          rintro rfl
          exact absurd behind.symm (by simp)
        have plainHere : PlainText piece := fun cell member =>
          plain cell (List.mem_append_left _ member)
        have plainRest : PlainText rest := fun cell member =>
          plain cell (List.mem_append_right _ member)
        rw [statusTogether_cons more, recvFd_plain accepts nonemptyHere plainHere]
        have continued := @hypothesis rest (passed ++ [piece.map Cell.byte]) plainRest behind
          nonemptyRest
        refine ⟨fun together => ?_, continued.2⟩
        rcases continued.1 together with ⟨text, received, texts⟩
        refine ⟨piece.map Cell.byte :: text, ?_, ?_⟩
        · rw [received, List.append_assoc, List.singleton_append]
        · rw [List.flatten_cons, texts, List.map_append]
      rw [List.flatten_cons] at whole
      rcases List.append_eq_append_iff.mp whole with ⟨rest, inside, behind⟩ | ⟨rest, rfl, behind⟩
      · exact goesOn rest inside behind
      · rcases rest with _ | ⟨cell, _ | ⟨other, more⟩⟩
        · exact goesOn [] (by rw [List.append_nil, List.append_nil]) behind.symm
        · rcases List.cons.inj behind with ⟨rfl, behindFirst⟩
          have lastAlone : [second] = pieces.flatten := behindFirst
          refine ⟨fun together => ?_, fun _ => by rw [recvFd_nulLast final.nul plain]⟩
          have more : pieces ≠ [] := by
            rintro rfl
            cases lastAlone
          have long := together _ (List.getLast?_eq_some_getLast (List.cons_ne_nil _ pieces))
          rw [List.getLast_cons more] at long
          have short := (List.sublist_flatten_of_mem (List.getLast_mem more)).length_le
          rw [← lastAlone, List.length_singleton] at short
          omega
        · rcases List.cons.inj behind with ⟨rfl, others⟩
          rcases List.cons.inj others with ⟨rfl, noMore⟩
          rcases List.append_eq_nil_iff.mp noMore.symm with ⟨rfl, noPieces⟩
          have isLast : pieces = [] := by
            cases pieces with
            | nil => rfl
            | cons other pieces =>
                rw [List.flatten_cons, List.append_eq_nil_iff] at noPieces
                exact absurd noPieces.1 (nonemptyRest other List.mem_cons_self)
          subst isLast
          rw [recvFd_final accepts final plain]
          refine ⟨fun _ => ?_, fun apart => absurd ?_ apart⟩
          · split
            · rename_i isEmpty
              subst isEmpty
              exact ⟨[], by rw [List.append_nil], rfl⟩
            · exact ⟨[message.map Cell.byte], rfl, by rw [List.flatten_singleton]⟩
          · intro other member
            cases member
            simp

/-! ## What is sent is what is received -/

/-- What `recv_fd` returns for an error: the low byte of the negated code, negated
again. -/
def errorValue (errcode : Int) : Int :=
  if 0 ≤ errcode ∨ (-errcode) % 256 = 0 then -1 else -((-errcode) % 256)

theorem errorStatus_toNat (fdToSend : Int) :
    ((errorStatus fdToSend).toNat : Int) =
      if (-fdToSend) % 256 = 0 then 1 else (-fdToSend) % 256 := by
  have low : 0 ≤ (-fdToSend) % 256 := Int.emod_nonneg _ (by decide)
  have high : (-fdToSend) % 256 < 256 := Int.emod_lt_of_pos _ (by decide)
  have value : (UInt8.ofNat ((-fdToSend) % 256).toNat).toNat = ((-fdToSend) % 256).toNat := by
    rw [UInt8.toNat_ofNat']
    omega
  have isZero : UInt8.ofNat ((-fdToSend) % 256).toNat = 0 ↔ (-fdToSend) % 256 = 0 := by
    rw [← UInt8.toNat_inj, value, UInt8.toNat_zero]
    omega
  rw [errorStatus]
  split
  · rename_i zero
    rw [if_pos (isZero.mp zero)]
    rfl
  · rename_i notZero
    rw [if_neg fun zero => notZero (isZero.mpr zero), value]
    omega

theorem errorStatus_ne_zero (fdToSend : Int) : errorStatus fdToSend ≠ 0 := by
  rw [errorStatus]
  split
  · decide
  · assumption

theorem finalValue_error (errcode : Int) :
    finalValue ⟨0, none⟩ ⟨errorStatus (if errcode ≥ 0 then -1 else errcode), none⟩ =
      errorValue errcode := by
  rw [finalValue, if_neg (errorStatus_ne_zero _), errorStatus_toNat, errorValue]
  by_cases positive : 0 ≤ errcode
  · rw [if_pos (Or.inl positive), if_pos (show errcode ≥ 0 from positive)]
    decide
  · rw [if_neg (show ¬ errcode ≥ 0 from positive)]
    split
    · rename_i isZero
      rw [if_pos (Or.inr isZero)]
    · rename_i isZero
      rw [if_neg]
      rintro (isPositive | zero)
      · exact positive isPositive
      · exact isZero zero

theorem errorValue_neg (errcode : Int) : errorValue errcode < 0 := by
  rw [errorValue]
  split
  · decide
  · rename_i different
    rw [not_or] at different
    have := Int.emod_nonneg (-errcode) (by decide : (256 : Int) ≠ 0)
    omega

theorem plainText_plainCells {text : Bytes} (noNul : ∀ byte ∈ text, byte ≠ 0) :
    PlainText (plainCells text) := by
  intro cell member
  rcases List.mem_map.mp member with ⟨byte, inside, rfl⟩
  exact ⟨noNul byte inside, rfl⟩

/-- `recv_fd` passes a message on and returns the value. -/
def Delivers (userfunc : Bytes → Int) (pieces : List (List Cell)) (message : Bytes) (value : Int) :
    Prop :=
  ∃ text, recvFd userfunc pieces [] = (.returned value, text) ∧ text.flatten = message

theorem delivers_iff {first second : Cell} {text : Bytes} (accepts : Accepts userfunc)
    (final : FinalCells first second) (noNul : ∀ byte ∈ text, byte ≠ 0)
    (cut : Cut (plainCells text ++ [first, second]) pieces) :
    Delivers userfunc pieces text (finalValue first second) ↔ StatusTogether pieces := by
  have received := @recvFd_pieces (plainCells text) pieces userfunc [] first second accepts final
    (plainText_plainCells noNul) cut.whole cut.nonempty
  constructor
  · rintro ⟨passed, returned, _⟩
    by_contra apart
    have dumped := received.2 apart
    rw [returned] at dumped
    cases dumped
  · intro together
    rcases received.1 together with ⟨passed, returned, texts⟩
    refine ⟨passed, returned, ?_⟩
    rw [texts, plainCells_bytes]

theorem finalCells_error (fdToSend : Int) : FinalCells ⟨0, none⟩ ⟨errorStatus fdToSend, none⟩ :=
  ⟨rfl, fun zero => absurd zero (errorStatus_ne_zero fdToSend)⟩

theorem sendErr_eq (errcode : Int) (message : Bytes) : sendErr errcode message =
    plainCells (cString message) ++
      [⟨0, none⟩, ⟨errorStatus (if errcode ≥ 0 then -1 else errcode), none⟩] := by
  have negative : (if errcode ≥ 0 then -1 else errcode) < 0 := by
    split
    · decide
    · omega
  rw [sendErr, sendFd, if_pos negative]

theorem delivers_sendErr_iff {errcode : Int} {message : Bytes} (accepts : Accepts userfunc)
    (noNul : ∀ byte ∈ message, byte ≠ 0) (cut : Cut (sendErr errcode message) pieces) :
    Delivers userfunc pieces message (errorValue errcode) ↔ StatusTogether pieces := by
  rw [sendErr_eq, cString_eq_self noNul] at cut
  rw [← delivers_iff accepts (finalCells_error _) noNul cut, finalValue_error]

theorem delivers_sendFd_iff {descriptor : Int} (accepts : Accepts userfunc)
    (positive : 0 ≤ descriptor) (cut : Cut (sendFd descriptor) pieces) :
    Delivers userfunc pieces [] descriptor ↔ StatusTogether pieces := by
  rw [sendFd, if_neg (by omega)] at cut
  have noText : ∀ byte ∈ ([] : Bytes), byte ≠ 0 := nofun
  exact delivers_iff accepts ⟨rfl, fun _ => rfl⟩ noText cut

/-- An error and its message, and a descriptor, arrive if and only if no piece ends
between the NUL byte and the status byte. -/
theorem recvFd_delivers (userfunc : Bytes → Int) (accepts : Accepts userfunc)
    (pieces : List (List Cell)) :
    (∀ (errcode : Int) (message : Bytes), (∀ byte ∈ message, byte ≠ 0) →
      Cut (sendErr errcode message) pieces →
      (Delivers userfunc pieces message (errorValue errcode) ∧ errorValue errcode < 0 ↔
        StatusTogether pieces)) ∧
    ∀ descriptor : Int, 0 ≤ descriptor → Cut (sendFd descriptor) pieces →
      (Delivers userfunc pieces [] descriptor ↔ StatusTogether pieces) := by
  constructor
  · intro errcode message noNul cut
    rw [and_iff_left (errorValue_neg errcode)]
    exact delivers_sendErr_iff accepts noNul cut
  · intro descriptor positive cut
    exact delivers_sendFd_iff accepts positive cut

/-- A user function that takes everything, as `write` does on a terminal. -/
def writeAll (text : Bytes) : Int := text.length

def shortMessage : List (List Cell) := [plainCells [110, 111] ++ [⟨0, none⟩, ⟨1, none⟩]]

def oneDescriptor : List (List Cell) := [sendFd 7]

theorem recvFd_delivers_short :
    Delivers writeAll shortMessage [110, 111] (errorValue (-1)) ∧
      Delivers writeAll oneDescriptor [] 7 := by
  have cutShort : Cut (sendErr (-1) [110, 111]) shortMessage :=
    ⟨by decide, by decide, by decide⟩
  have cutDescriptor : Cut (sendFd 7) oneDescriptor := ⟨by decide, by decide, by decide⟩
  constructor
  · apply (((recvFd_delivers writeAll (fun _ => rfl) shortMessage).1 (-1) [110, 111] (by simp)
      cutShort).mpr _).1
    intro piece member
    cases member
    decide
  · apply ((recvFd_delivers writeAll (fun _ => rfl) oneDescriptor).2 7 (by decide)
      cutDescriptor).mpr
    intro piece member
    cases member
    decide

/-- A message of 4095 bytes fills the buffer together with the NUL byte. -/
def longMessage : Bytes := List.replicate 4095 97

def fullBuffer : List (List Cell) := [plainCells longMessage ++ [⟨0, none⟩], [⟨1, none⟩]]

theorem fullBuffer_dumps :
    Cut (sendErr (-1) longMessage) fullBuffer ∧ (recvFd writeAll fullBuffer []).1 = .dumped ∧
      ¬ Delivers writeAll fullBuffer longMessage (errorValue (-1)) := by
  have noNul : ∀ byte ∈ longMessage, byte ≠ 0 := by
    intro byte member
    rw [List.eq_of_mem_replicate member]
    decide
  have dumped : recvFd writeAll fullBuffer [] = (.dumped, []) :=
    recvFd_nulLast rfl (plainText_plainCells noNul)
  have status : errorStatus (-1) = 1 := by decide
  refine ⟨⟨?_, ?_, ?_⟩, by rw [dumped], ?_⟩
  · rw [sendErr, cString_eq_self noNul, if_neg (by decide), sendFd, if_pos (by decide), status]
    simp [fullBuffer]
  · simp [fullBuffer]
  · intro piece member
    rcases List.mem_pair.mp member with rfl | rfl
    · rw [List.length_append, plainCells, List.length_map, longMessage, List.length_replicate]
      decide
    · decide
  · rintro ⟨text, received, _⟩
    rw [dumped] at received
    cases received

end Apue.Opend
