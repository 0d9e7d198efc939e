import Apue.Foundation.CutOff
import Apue.Printer.StatusRounds
import Mathlib.Data.List.TakeWhile

/-! # What `printer_status` reads and writes

The function is sure of what it reads only where a response, as far as it looks at it,
arrives in one piece.
-/

namespace Apue.Printer.Status

open Apue.Foundation Ascii

/-- Only bytes that have been received are read, nothing outside the allocated memory
is written, and the counts are right. -/
def Sound : Access → Buffer → Prop
  | .load index, buffer => index < buffer.received
  | .store index _, buffer => index < buffer.size
  | .tread offset count, buffer => offset + count ≤ buffer.size
  | .counts i datsz bufsz, buffer => (∀ index ∈ i, index ≤ datsz) ∧ datsz ≤ bufsz ∧
      datsz = buffer.received ∧ bufsz = buffer.size
  | .realloc _, _ | .lookForEnd _ _, _ | .outOfRounds, _ => True

instance : ∀ access buffer, Decidable (Sound access buffer)
  | .load index, buffer => inferInstanceAs (Decidable (index < buffer.received))
  | .store index _, buffer => inferInstanceAs (Decidable (index < buffer.size))
  | .tread offset count, buffer => inferInstanceAs (Decidable (offset + count ≤ buffer.size))
  | .counts _ _ _, _ => inferInstanceAs (Decidable (_ ∧ _))
  | .realloc _, _ | .lookForEnd _ _, _ | .outOfRounds, _ => isTrue trivial

/-! ## Responses in one piece -/

/-- The digits behind white space, and what stands behind the byte that ends them. -/
def numberIn (text : Bytes) : Option (Bytes × Bytes) :=
  match (text.dropWhile isSpace).dropWhile isDigit with
  | [] => none
  | _ :: rest => some ((text.dropWhile isSpace).takeWhile isDigit, rest)

def behindLine (text : Bytes) : Option Bytes :=
  match text.dropWhile isInLine with
  | [] => none
  | _ :: rest => some rest

/-- `none` where the text ends before the comparison is decided. -/
def comparison : Bytes → Bytes → Option Bool
  | [], _ => some true
  | _ :: _, [] => none
  | other :: expected, byte :: text =>
      if toLower byte = toLower other then comparison expected text else some false

/-- What stands behind the name of the field. -/
def behindName : Bytes → Option Bytes
  | [] => none
  | byte :: rest =>
      if byte = 67 ∨ byte = 99 then
        match comparison CONTENT_LENGTH (byte :: rest) with
        | none => none
        | some true => some ((byte :: rest).drop 15)
        | some false => behindName rest
      else behindName rest

def behindBlankLine : Bytes → Option Bytes
  | [] => none
  | byte :: rest =>
      if byte = LF ∧ rest.take 2 = [CR, LF] then some (rest.drop 2) else behindBlankLine rest

/-- What stands behind the field for the length. If the end of the header is there, then
so are the bytes of the IPP header. Where the code asks for more, nothing comes. -/
def BodyContained (len : Int) (rest : Bytes) (pieces : List Bytes) : Prop :=
  if rest = [] then pieces = []
  else match behindBlankLine rest with
    | none => True
    | some body =>
        if body = [] ∨ (body.length : Int) < len then pieces = [] else 8 ≤ body.length

/-- The rest of a response with a status that is a success. -/
def HeaderContained (header : Bytes) (pieces : List Bytes) : Prop :=
  match (behindName header).bind numberIn with
  | none => False
  | some (contentlen, rest) => BodyContained (atoi contentlen) rest pieces

/-- The bytes that are looked for in a piece that is read from the start of the buffer
are in it. Where it is passed over, the `later` ones count, and `success` is for what
follows a status that is one. -/
def PieceContained (success : Bytes → Prop) (piece : Bytes) (later : Prop) : Prop :=
  match numberIn (piece.drop 8) with
  | none => False
  | some (statcode, reason) =>
      if statcode = [] then 0 ∈ piece ∧ later
      else match behindLine reason with
        | none => False
        | some header =>
            if HTTP_INFO (atoi statcode) then later
            else if HTTP_SUCCESS (atoi statcode) then success header
            else piece.length < IOBUFSZ

def SelfContained : List Bytes → Prop
  | [] => True
  | piece :: pieces =>
      PieceContained (fun header => HeaderContained header pieces) piece (SelfContained pieces)

/-! ## Accesses to what has been received -/

/-- From `cp` on, the buffer has received these bytes. -/
structure Buffer.Holds (buffer : Buffer) (cp : Nat) (text : Bytes) : Prop where
  cells : ∀ index (inside : index < text.length), buffer.memory (cp + index) = text[index]
  ends : text.length = buffer.received - cp
  fits : buffer.received ≤ buffer.size

section Holds

variable {buffer : Buffer} {cp : Nat} {byte : Byte} {front back text : Bytes}

theorem Buffer.Holds.head (holds : buffer.Holds cp (byte :: text)) : buffer.memory cp = byte :=
  holds.cells 0 (Nat.succ_pos _)

theorem Buffer.Holds.dropAt (holds : buffer.Holds cp text) (count : Nat) :
    buffer.Holds (cp + count) (text.drop count) where
  cells := by
    intro index inside
    rw [List.length_drop] at inside
    have shifted := holds.cells (count + index) (by omega)
    rw [List.getElem_drop, Nat.add_assoc]
    exact shifted
  ends := by
    rw [List.length_drop, holds.ends]
    omega
  fits := holds.fits

theorem Buffer.Holds.drop (holds : buffer.Holds cp (front ++ back)) :
    buffer.Holds (cp + front.length) back := by
  have dropped := holds.dropAt front.length
  rw [List.drop_left] at dropped
  exact dropped

theorem Buffer.Holds.tail (holds : buffer.Holds cp (byte :: text)) :
    buffer.Holds (cp + 1) text :=
  @Buffer.Holds.drop _ _ [byte] _ holds

/-- A byte that has been received is replaced. -/
theorem Buffer.Holds.put (holds : buffer.Holds cp (front ++ byte :: back)) (new : Byte) :
    (buffer.put (cp + front.length) new).Holds cp (front ++ new :: back) where
  cells := by
    intro index inside
    have sameLength : (front ++ new :: back).length = (front ++ byte :: back).length := by
      rw [List.length_append, List.length_append, List.length_cons, List.length_cons]
    have old := holds.cells index (sameLength ▸ inside)
    rw [Buffer.put]
    dsimp only
    rcases Nat.lt_trichotomy index front.length with before | rfl | behind
    · rw [Function.update_of_ne (by omega), old, List.getElem_append_left before,
        List.getElem_append_left before]
    · rw [Function.update_self]
      simp
    · rw [Function.update_of_ne (by omega), old]
      rw [List.getElem_append_right behind.le, List.getElem_append_right behind.le]
      rcases Nat.exists_eq_add_of_lt behind with ⟨offset, rfl⟩
      have isOffset : front.length + offset + 1 - front.length = offset + 1 := by omega
      simp only [isOffset, List.getElem_cons_succ]
  ends := by
    rw [Buffer.put_received, ← holds.ends, List.length_append, List.length_append,
      List.length_cons, List.length_cons]
  fits := holds.fits

/-- A byte in front of the text, or behind all that has been received, is replaced. -/
theorem Buffer.Holds.put_outside (holds : buffer.Holds cp text) {index : Nat} (new : Byte)
    (outside : index < cp ∨ buffer.received ≤ index) : (buffer.put index new).Holds cp text where
  cells := by
    intro offset inside
    have whole := holds.ends
    rw [Buffer.put]
    dsimp only
    rw [Function.update_of_ne (by omega)]
    exact holds.cells offset inside
  ends := holds.ends
  fits := holds.fits

end Holds

/-! ## The loops on what has been received -/

section Loops

variable {Result : Type} {cut : Prop} {post : Result → Buffer → Prop} {buffer : Buffer}
  {cp rounds : Nat}
  {byte : Byte} {text : Bytes}

/-- What the program does is sound, and also defined unless the run may be `cut`. -/
abbrev SoundRun (cut : Prop) (post : Result → Buffer → Prop) (program : Reader Result)
    (buffer : Buffer) : Prop :=
  program.Always Answers (fun access buffer => Sound access buffer ∧ (buffer.answer access = none → cut))
    post buffer

theorem Buffer.Holds.lt_received (holds : buffer.Holds cp (byte :: text)) : cp < buffer.received := by
  have whole := holds.ends
  rw [List.length_cons] at whole
  omega

theorem sound_perform_iff {access : Access} {response : AccessResponse access} {after : Buffer}
    (answered : Answers access buffer response after) (more : AccessResponse access → Reader Result) :
    SoundRun cut post (Program.perform access >>= more) buffer ↔
      Sound access buffer ∧ SoundRun cut post (more response) after := by
  constructor
  · intro sound
    exact ⟨sound.1.1, sound.after_call answered⟩
  · rintro ⟨here, sound⟩
    apply Program.Always.call ⟨here, fun undefined => by cases undefined.symm.trans answered⟩
    intro other later answers
    cases answered.symm.trans answers
    exact sound

theorem sound_load_iff (holds : buffer.Holds cp (byte :: text)) (more : Byte → Reader Result) :
    SoundRun cut post (Reader.load cp >>= more) buffer ↔ SoundRun cut post (more byte) buffer := by
  have inside : cp < buffer.size := holds.lt_received.trans_le holds.fits
  have here : Sound (.load cp) buffer := holds.lt_received
  apply (sound_perform_iff (Answers.of_load inside) more).trans
  rw [holds.head]
  exact and_iff_right here

theorem not_sound_load (holds : buffer.Holds cp []) (more : Byte → Reader Result) :
    ¬ SoundRun cut post (Reader.load cp >>= more) buffer := by
  intro sound
  have received : cp < buffer.received := sound.1.1
  have whole := holds.ends
  rw [List.length_nil] at whole
  omega

theorem sound_store_iff {index : Nat} (inside : index < buffer.size) (new : Byte)
    (more : Unit → Reader Result) :
    SoundRun cut post (Reader.store index new >>= more) buffer ↔
      SoundRun cut post (more ()) (buffer.put index new) := by
  have answered : Answers (.store index new) buffer () (buffer.put index new) := if_pos inside
  have here : Sound (.store index new) buffer := inside
  exact (sound_perform_iff answered more).trans (and_iff_right here)

theorem sound_counts_iff {i : Option Nat} {datsz bufsz : Nat} (more : Unit → Reader Result) :
    SoundRun cut post (Reader.counts i datsz bufsz >>= more) buffer ↔
      Sound (.counts i datsz bufsz) buffer ∧ SoundRun cut post (more ()) buffer :=
  sound_perform_iff (rfl : Answers (.counts i datsz bufsz) buffer () buffer) more

theorem sound_lookForEnd_iff {i datsz : Nat} (more : Unit → Reader Result) :
    SoundRun cut post (Reader.lookForEnd i datsz >>= more) buffer ↔
      SoundRun cut post (more ()) buffer := by
  have here : Sound (.lookForEnd i datsz) buffer := trivial
  apply (sound_perform_iff (rfl : Answers (.lookForEnd i datsz) buffer () buffer) more).trans
  exact and_iff_right here

theorem sound_skipWhile_iff (test : Byte → Bool) (holds : buffer.Holds cp text)
    (enough : text.length < rounds) (more : Nat → Reader Result) :
    SoundRun cut post (skipWhile test rounds cp >>= more) buffer ↔
      text.dropWhile test ≠ [] ∧
        SoundRun cut post (more (cp + (text.takeWhile test).length)) buffer := by
  induction text generalizing cp rounds with
  | nil =>
      rcases Nat.exists_eq_add_of_lt enough with ⟨_, rfl⟩
      simp only [List.dropWhile_nil, ne_eq, not_true, false_and, iff_false]
      rw [skipWhile, bind_assoc]
      exact not_sound_load holds _
  | cons byte text hypothesis =>
      cases rounds with
      | zero => cases enough
      | succ rounds =>
          rw [skipWhile, bind_assoc, sound_load_iff holds]
          by_cases skipped : test byte = true
          · rw [if_pos skipped, List.dropWhile_cons_of_pos skipped,
              List.takeWhile_cons_of_pos skipped, List.length_cons,
              hypothesis holds.tail (Nat.lt_of_succ_lt_succ enough)]
            rw [Nat.add_assoc, Nat.add_comm 1]
          · rw [if_neg skipped, List.dropWhile_cons_of_neg skipped,
              List.takeWhile_cons_of_neg skipped]
            simp

theorem sound_readString_iff (holds : buffer.Holds cp text) (enough : text.length < rounds)
    (more : Bytes → Reader Result) :
    SoundRun cut post (readString rounds cp >>= more) buffer ↔
      0 ∈ text ∧ SoundRun cut post (more (cString text)) buffer := by
  induction text generalizing cp rounds more with
  | nil =>
      rcases Nat.exists_eq_add_of_lt enough with ⟨_, rfl⟩
      simp only [List.not_mem_nil, false_and, iff_false]
      rw [readString, bind_assoc]
      exact not_sound_load holds _
  | cons byte text hypothesis =>
      cases rounds with
      | zero => cases enough
      | succ rounds =>
          rw [readString, bind_assoc, sound_load_iff holds]
          by_cases isNul : byte = 0
          · subst isNul
            rw [if_pos rfl, pure_bind]
            simp [cString]
          · rw [if_neg isNul, bind_assoc, hypothesis holds.tail (Nat.lt_of_succ_lt_succ enough)]
            have cut : cString (byte :: text) = byte :: cString text :=
              List.takeWhile_cons_of_pos (by simpa using isNul)
            rw [cut, pure_bind, List.mem_cons]
            simp [Ne.symm isNul]

theorem sound_strncasecmp_iff (expected : Bytes) (holds : buffer.Holds cp text)
    (more : Bool → Reader Result) :
    SoundRun cut post (strncasecmp cp expected >>= more) buffer ↔
      ∃ same, comparison expected text = some same ∧ SoundRun cut post (more same) buffer := by
  induction expected generalizing cp text with
  | nil => simp [strncasecmp, comparison]
  | cons other expected hypothesis =>
      cases text with
      | nil =>
          simp only [comparison, reduceCtorEq, false_and, exists_false, iff_false]
          rw [strncasecmp, bind_assoc]
          exact not_sound_load holds _
      | cons byte text =>
          rw [strncasecmp, bind_assoc, sound_load_iff holds, comparison]
          by_cases alike : toLower byte = toLower other
          · rw [if_pos alike, if_pos alike, hypothesis holds.tail]
          · rw [if_neg alike, if_neg alike]
            simp

/-! ## More from the printer -/

theorem sound_tread_none_iff {offset count : Nat} (nothing : buffer.pieces = [])
    (inside : offset + count ≤ buffer.size) (more : Option Nat → Reader Result) :
    SoundRun cut post (Reader.tread offset count >>= more) buffer ↔
      SoundRun cut post (more none) buffer := by
  have answered : buffer.answer (.tread offset count) = some ((none : Option Nat), buffer) := by
    rw [Buffer.answer, nothing]
    rfl
  have here : Sound (.tread offset count) buffer := inside
  exact (sound_perform_iff answered more).trans (and_iff_right here)

/-- What a piece does to the buffer. -/
def Buffer.take (buffer : Buffer) (offset count : Nat) (piece : Bytes) (pieces : List Bytes) :
    Buffer :=
  { buffer.fill offset (piece.take count) with
    pieces := if piece.length ≤ count then pieces else piece.drop count :: pieces }

theorem sound_tread_some_iff {offset count : Nat} {piece : Bytes} {pieces : List Bytes}
    (isPieces : buffer.pieces = piece :: pieces) (notEmpty : piece ≠ []) (positive : 0 < count)
    (inside : offset + count ≤ buffer.size) (more : Option Nat → Reader Result) :
    SoundRun cut post (Reader.tread offset count >>= more) buffer ↔
      SoundRun cut post (more (some (piece.take count).length)) (buffer.take offset count piece pieces) := by
  have answered : buffer.answer (.tread offset count) =
      some (some (piece.take count).length, buffer.take offset count piece pieces) := by
    have partNotEmpty : piece.take count ≠ [] := by
      intro isEmpty
      rcases List.take_eq_nil_iff.mp isEmpty with isZero | isNil
      · omega
      · exact notEmpty isNil
    have fits : offset + (piece.take count).length ≤ buffer.size := by
      rw [List.length_take]
      omega
    rw [Buffer.answer, isPieces]
    dsimp only
    rw [if_neg partNotEmpty, if_pos fits]
    rfl
  have here : Sound (.tread offset count) buffer := inside
  exact (sound_perform_iff answered more).trans (and_iff_right here)

theorem sound_treadMore_iff {cursor : Cursor} {bsz : Nat} (sized : bsz = buffer.size)
    (right : cursor.datsz = buffer.received) (positive : 0 < cursor.i) (room : cursor.i < bsz)
    (notEmpty : ∀ piece ∈ buffer.pieces, piece ≠ []) {more : Option Cursor → Reader Result}
    (stops : SoundRun cut post (more none) buffer) :
    SoundRun cut post (treadMore cursor.i bsz >>= fun nr => addMore cursor nr >>= more) buffer ↔
      buffer.pieces = [] := by
  have fits : cursor.i + (bsz - cursor.i) ≤ buffer.size := by omega
  cases isPieces : buffer.pieces with
  | nil =>
      rw [treadMore, bind_assoc, sound_tread_none_iff isPieces fits]
      exact iff_of_true stops rfl
  | cons piece pieces =>
      have count : 0 < bsz - cursor.i := by omega
      rw [isPieces] at notEmpty
      rw [treadMore, bind_assoc, sound_tread_some_iff isPieces (notEmpty piece List.mem_cons_self)
        count fits]
      apply iff_of_false
      · intro sound
        have counted : Sound (.counts (some cursor.i) _ _) _ := sound.1.1
        have isCount := counted.2.2.1
        have isReceived : (buffer.take cursor.i (bsz - cursor.i) piece pieces).received =
            (if cursor.i = 0 then 0 else buffer.received) +
              (piece.take (bsz - cursor.i)).length := rfl
        rw [isReceived, if_neg (by omega)] at isCount
        omega
      · exact List.cons_ne_nil _ _

/-- Where the code asks for more, the counts are wrong as soon as something comes. -/
theorem sound_getMoreIf_iff {cursor : Cursor} (sized : cursor.bufsz = buffer.size)
    (right : cursor.datsz = buffer.received) (positive : 0 < cursor.i)
    (inside : cursor.i ≤ buffer.size) (notEmpty : ∀ piece ∈ buffer.pieces, piece ≠ [])
    {more : Option Cursor → Reader Result} (stops : ∀ after, SoundRun cut post (more none) after) :
    SoundRun cut post (getMoreIf true cursor >>= more) buffer ↔ buffer.pieces = [] := by
  rw [getMoreIf, if_pos rfl, bind_assoc, readmore]
  by_cases full : cursor.i ≥ cursor.bufsz
  · have room : cursor.i < cursor.bufsz + IOBUFSZ := by
      rw [IOBUFSZ]
      omega
    have grown := @sound_treadMore_iff _ cut post { buffer with size := cursor.bufsz + IOBUFSZ } _ _ rfl
      right positive room notEmpty more (stops _)
    have answered : Answers (.realloc (cursor.bufsz + IOBUFSZ)) buffer ()
        { buffer with size := cursor.bufsz + IOBUFSZ } := rfl
    have here : Sound (.realloc (cursor.bufsz + IOBUFSZ)) buffer := trivial
    rw [if_pos full, bind_assoc, ← grown]
    exact (sound_perform_iff answered _).trans (and_iff_right here)
  · rw [if_neg full]
    exact sound_treadMore_iff sized right positive (Nat.lt_of_not_le full) notEmpty (stops _)

theorem getMoreIf_false (cursor : Cursor) (more : Option Cursor → Reader Result) :
    getMoreIf false cursor >>= more = more (some cursor) := by
  rw [getMoreIf, if_neg Bool.false_ne_true, pure_bind]

def isNotC (byte : Byte) : Bool := byte != 67 && byte != 99

theorem sound_seekC_iff {datsz bufsz : Nat} (sized : bufsz = buffer.size)
    (right : datsz = buffer.received) (holds : buffer.Holds cp text) (inside : cp ≤ datsz)
    (enough : text.length < rounds) (more : Nat → Reader Result) :
    SoundRun cut post (seekC datsz bufsz rounds cp >>= more) buffer ↔
      text.dropWhile isNotC ≠ [] ∧
        SoundRun cut post (more (cp + (text.takeWhile isNotC).length))
          buffer := by
  have fits : datsz ≤ bufsz := by
    rw [sized, right]
    exact holds.fits
  induction text generalizing cp rounds with
  | nil =>
      rcases Nat.exists_eq_add_of_lt enough with ⟨_, rfl⟩
      simp only [List.dropWhile_nil, ne_eq, not_true, false_and, iff_false]
      rw [seekC, bind_assoc, sound_counts_iff]
      rintro ⟨_, sound⟩
      rw [bind_assoc] at sound
      exact not_sound_load holds _ sound
  | cons byte text hypothesis =>
      cases rounds with
      | zero => cases enough
      | succ rounds =>
          have here : Sound (.counts (some cp) datsz bufsz) buffer :=
            ⟨fun index isIndex => Option.some.inj isIndex ▸ inside, fits, right, sized⟩
          have received := holds.lt_received
          rw [seekC, bind_assoc, sound_counts_iff, and_iff_right here, bind_assoc,
            sound_load_iff holds]
          by_cases skipped : isNotC byte = true
          · have goesOn : byte ≠ 67 ∧ byte ≠ 99 ∧ cp < datsz := by
              simp only [isNotC, Bool.and_eq_true, bne_iff_ne] at skipped
              exact ⟨skipped.1, skipped.2, right ▸ received⟩
            have below : cp + 1 ≤ datsz := right ▸ received
            have again := hypothesis holds.tail below (Nat.lt_of_succ_lt_succ enough)
            rw [if_pos goesOn, List.dropWhile_cons_of_pos skipped,
              List.takeWhile_cons_of_pos skipped, List.length_cons]
            apply again.trans
            rw [Nat.add_assoc, Nat.add_comm 1]
          · have stays : ¬ (byte ≠ 67 ∧ byte ≠ 99 ∧ cp < datsz) := by
              rintro ⟨notUpper, notLower, _⟩
              apply skipped
              simp [isNotC, notUpper, notLower]
            rw [if_neg stays, List.dropWhile_cons_of_neg skipped,
              List.takeWhile_cons_of_neg skipped]
            simp

/-! ## Numbers -/

theorem numberIn_eq_some {digits rest : Bytes} (found : numberIn text = some (digits, rest)) :
    ∃ byte, text = text.takeWhile isSpace ++ digits ++ byte :: rest ∧
      (∀ digit ∈ digits, isDigit digit = true) ∧ digits = (text.dropWhile isSpace).takeWhile isDigit := by
  rw [numberIn] at found
  split at found
  · cases found
  · rename_i byte behind isBehind
    cases found
    refine ⟨byte, ?_, fun digit member => List.mem_takeWhile_imp member, rfl⟩
    rw [← isBehind, List.append_assoc, List.takeWhile_append_dropWhile,
      List.takeWhile_append_dropWhile]

theorem sound_number_iff (holds : buffer.Holds cp text) (enough : text.length < rounds)
    (more : Nat → Nat → Reader Result) :
    SoundRun cut post (skipWhile isSpace rounds cp >>= fun start =>
        skipWhile isDigit rounds start >>= more start) buffer ↔
      ∃ digits rest, numberIn text = some (digits, rest) ∧
        SoundRun cut post (more (cp + (text.takeWhile isSpace).length)
          (cp + (text.takeWhile isSpace).length + digits.length)) buffer := by
  have split : buffer.Holds cp (text.takeWhile isSpace ++ text.dropWhile isSpace) := by
    rw [List.takeWhile_append_dropWhile]
    exact holds
  have shorter : (text.dropWhile isSpace).length < rounds :=
    (List.dropWhile_sublist _).length_le.trans_lt enough
  rw [sound_skipWhile_iff isSpace holds enough, sound_skipWhile_iff isDigit split.drop shorter, numberIn]
  cases isBehind : (text.dropWhile isSpace).dropWhile isDigit with
  | nil => simp
  | cons byte rest =>
      have notEmpty : text.dropWhile isSpace ≠ [] := by
        intro isEmpty
        rw [isEmpty] at isBehind
        cases isBehind
      simp [notEmpty]

/-- `atoi` of a number that has been cut off behind its digits. -/
theorem sound_readNumber_iff {digits rest : Bytes} (holds : buffer.Holds cp (digits ++ byte :: rest))
    (areDigits : ∀ digit ∈ digits, isDigit digit = true)
    (enough : (digits ++ byte :: rest).length < rounds) (more : Bytes → Reader Result) :
    SoundRun cut post (readString rounds cp >>= more) (buffer.put (cp + digits.length) 0) ↔
      SoundRun cut post (more digits) (buffer.put (cp + digits.length) 0) := by
  have noNul : ∀ digit ∈ digits, digit ≠ 0 := by
    rintro digit member rfl
    exact absurd (areDigits 0 member) (by decide)
  have sameLength : (digits ++ 0 :: rest).length < rounds := by
    rw [List.length_append, List.length_cons] at enough ⊢
    exact enough
  rw [sound_readString_iff (holds.put 0) sameLength, cString_append noNul]
  simp

/-- The value of the Content-Length is read and cut off. -/
theorem sound_value_iff {datsz bufsz : Nat} (sized : bufsz = buffer.size)
    (right : datsz = buffer.received) (holds : buffer.Holds cp text) (enough : text.length < rounds)
    (more : Nat → Bytes → Reader Result) :
    SoundRun cut post (skipWhile isSpace rounds cp >>= fun contentlen =>
        skipWhile isDigit rounds contentlen >>= fun behind =>
          Reader.store behind 0 >>= fun _ =>
            Reader.counts (some (behind + 1)) datsz bufsz >>= fun _ =>
              readString rounds contentlen >>= more behind) buffer ↔
      ∃ contentlen rest, numberIn text = some (contentlen, rest) ∧
        SoundRun cut post (more (datsz - rest.length - 1) contentlen)
          (buffer.put (datsz - rest.length - 1) 0) := by
  apply (sound_number_iff holds enough _).trans
  apply exists_congr
  intro contentlen
  apply exists_congr
  intro rest
  apply and_congr_right
  intro found
  rcases numberIn_eq_some found with ⟨byte, split, areDigits, _⟩
  rw [List.append_assoc] at split
  rw [split] at enough holds
  have number := holds.drop
  have behind := number.drop
  have received := behind.lt_received
  have ends := behind.ends
  have fits := holds.fits
  rw [List.length_cons] at ends
  have isBehind : datsz - rest.length - 1 =
      cp + (text.takeWhile isSpace).length + contentlen.length := by omega
  have here : Sound (.counts (some (cp + (text.takeWhile isSpace).length + contentlen.length + 1))
      datsz bufsz) (buffer.put (cp + (text.takeWhile isSpace).length + contentlen.length) 0) := by
    refine ⟨fun index isIndex => ?_, ?_, right, sized⟩
    · cases isIndex
      omega
    · omega
  have shorter : (contentlen ++ byte :: rest).length < rounds := by
    rw [List.length_append] at enough
    omega
  rw [isBehind, sound_store_iff (received.trans_le fits), sound_counts_iff, and_iff_right here,
    sound_readNumber_iff number areDigits shorter]

/-! ## The Content-Length -/

theorem behindName_dropWhile (text : Bytes) :
    behindName text = behindName (text.dropWhile isNotC) := by
  induction text with
  | nil => rfl
  | cons byte rest hypothesis =>
      by_cases skipped : isNotC byte = true
      · have notC : ¬ (byte = 67 ∨ byte = 99) := by
          simp only [isNotC, Bool.and_eq_true, bne_iff_ne] at skipped
          rintro (upper | lower)
          · exact skipped.1 upper
          · exact skipped.2 lower
        rw [List.dropWhile_cons_of_pos skipped, behindName, if_neg notC]
        exact hypothesis
      · rw [List.dropWhile_cons_of_neg skipped]

theorem length_le_of_comparison {expected : Bytes}
    (same : comparison expected text = some true) : expected.length ≤ text.length := by
  induction expected generalizing text with
  | nil => exact Nat.zero_le _
  | cons other expected hypothesis =>
      cases text with
      | nil => cases same
      | cons byte text =>
          rw [comparison] at same
          split at same
          · exact Nat.succ_le_succ (hypothesis same)
          · cases same

theorem behindName_suffix {value : Bytes} (found : behindName text = some value) :
    ∃ front, text = front ++ value := by
  induction text with
  | nil => cases found
  | cons byte rest hypothesis =>
      have later : behindName rest = some value → ∃ front, byte :: rest = front ++ value := by
        intro isLater
        rcases hypothesis isLater with ⟨front, rfl⟩
        exact ⟨byte :: front, rfl⟩
      rw [behindName] at found
      split at found
      · split at found
        · cases found
        · cases found
          exact ⟨(byte :: rest).take 15, (List.take_append_drop 15 _).symm⟩
        · exact later found
      · exact later found

/-- The field is in front of what stands behind it. -/
theorem field_suffix {contentlen rest : Bytes}
    (found : (behindName text).bind numberIn = some (contentlen, rest)) :
    ∃ front byte, text = front ++ byte :: rest := by
  rcases Option.bind_eq_some_iff.mp found with ⟨value, isValue, isNumber⟩
  rcases behindName_suffix isValue with ⟨front, rfl⟩
  rcases numberIn_eq_some isNumber with ⟨byte, split, _⟩
  refine ⟨front ++ (value.takeWhile isSpace ++ contentlen), byte, ?_⟩
  rw [List.append_assoc, ← split]

theorem sound_contentLength_iff {cursor : Cursor} (sized : cursor.bufsz = buffer.size)
    (right : cursor.datsz = buffer.received) (holds : buffer.Holds cursor.i text)
    (inside : cursor.i ≤ cursor.datsz) (enough : text.length + 1 < rounds)
    (more : Option (Cursor × Int) → Reader Result) :
    SoundRun cut post (findContentLength rounds cursor >>= more) buffer ↔
      ∃ contentlen rest, (behindName text).bind numberIn = some (contentlen, rest) ∧
        SoundRun cut post
          (more (some ({ cursor with i := cursor.datsz - rest.length }, atoi contentlen)))
          (buffer.put (cursor.datsz - rest.length - 1) 0) := by
  induction rounds generalizing cursor text with
  | zero => omega
  | succ rounds hypothesis =>
      have split : buffer.Holds cursor.i (text.takeWhile isNotC ++ text.dropWhile isNotC) := by
        rw [List.takeWhile_append_dropWhile]
        exact holds
      have found := split.drop
      have fits := holds.fits
      rw [findContentLength, bind_assoc,
        sound_seekC_iff sized right holds inside (by omega), behindName_dropWhile]
      cases isFound : text.dropWhile isNotC with
      | nil => simp [behindName]
      | cons byte rest =>
          rw [isFound] at found
          have received := found.lt_received
          have notNeeded : decide (cursor.i + (text.takeWhile isNotC).length ≥ cursor.datsz) = false :=
            decide_eq_false (by omega)
          have isC : byte = 67 ∨ byte = 99 := by
            have stops := List.head?_dropWhile_not isNotC text
            rw [isFound] at stops
            simpa only [List.head?_cons, isNotC, Bool.and_eq_false_iff, bne_eq_false_iff_eq]
              using stops
          dsimp only
          rw [notNeeded, bind_assoc, getMoreIf_false]
          dsimp only
          rw [and_iff_right (List.cons_ne_nil _ _), bind_assoc, sound_strncasecmp_iff _ found,
            behindName, if_pos isC]
          cases compared : comparison CONTENT_LENGTH (byte :: rest) with
          | none => simp
          | some same =>
              cases same with
              | false =>
                  have shorter : rest.length + 1 < rounds := by
                    have whole := List.length_dropWhile_le isNotC text
                    rw [isFound, List.length_cons] at whole
                    omega
                  have again := @hypothesis rest
                    { cursor with i := cursor.i + (text.takeWhile isNotC).length + 1 } sized right
                    found.tail (by dsimp only; omega) shorter
                  constructor
                  · rintro ⟨_, ⟨⟩, sound⟩
                    exact again.mp sound
                  · intro later
                    exact ⟨false, rfl, again.mpr later⟩
              | true =>
                  have long := length_le_of_comparison compared
                  have behind := found.dropAt 15
                  have shorter : ((byte :: rest).drop 15).length < rounds := by
                    have whole := List.length_dropWhile_le isNotC text
                    rw [isFound] at whole
                    rw [List.length_drop]
                    omega
                  simp only [Option.some.injEq, exists_eq_left', if_true, bind_assoc, pure_bind]
                  apply (sound_value_iff sized right behind shorter fun behind number =>
                    more (some ({ cursor with i := behind + 1 }, atoi number))).trans
                  apply exists_congr
                  intro contentlen
                  apply exists_congr
                  intro following
                  apply and_congr_right
                  intro isNumber
                  rcases numberIn_eq_some isNumber with ⟨last, whole, _⟩
                  have lengths := congrArg List.length whole
                  rw [List.length_append, List.length_cons] at lengths
                  have ends := behind.ends
                  have isBehind : cursor.datsz - following.length - 1 + 1 =
                      cursor.datsz - following.length := by omega
                  rw [isBehind]

/-! ## The end of the header -/

theorem behindBlankLine_append {front back : Bytes} (nothing : behindBlankLine (front ++ back) = none) :
    behindBlankLine back = none := by
  induction front with
  | nil => exact nothing
  | cons byte front hypothesis =>
      rw [List.cons_append, behindBlankLine] at nothing
      split at nothing
      · cases nothing
      · exact hypothesis nothing

/-- The loop looks at a byte with two more behind it. -/
theorem sound_seekEnd_iff {datsz bufsz : Nat} (sized : bufsz = buffer.size)
    (right : datsz = buffer.received) (holds : buffer.Holds cp (byte :: text))
    (long : 2 ≤ text.length) (more : Bool × Nat → Reader Result) :
    SoundRun cut post (seekEnd datsz bufsz (rounds + 1) cp >>= more) buffer ↔
      if byte = LF ∧ text.take 2 = [CR, LF] then SoundRun cut post (more (true, cp + 3)) buffer
      else SoundRun cut post (seekEnd datsz bufsz rounds (cp + 1) >>= more) buffer := by
  rcases text with _ | ⟨second, _ | ⟨third, text⟩⟩
  · simp at long
  · simp at long
  have received := holds.lt_received
  have ends := holds.ends
  have fits := holds.fits
  simp only [List.length_cons] at ends
  have here : ∀ index, index ≤ datsz → Sound (.counts (some index) datsz bufsz) buffer := by
    intro index inside
    refine ⟨fun other isOther => ?_, ?_, right, sized⟩
    · cases isOther
      exact inside
    · omega
  have more3 : cp + 2 < datsz := by omega
  rw [seekEnd, bind_assoc, sound_counts_iff, and_iff_right (here cp (by omega)), if_pos more3,
    bind_assoc, sound_load_iff holds]
  by_cases isFirst : byte = LF
  · rw [if_pos isFirst, bind_assoc, sound_load_iff holds.tail]
    by_cases isSecond : second = CR
    · rw [if_pos isSecond, bind_assoc, sound_load_iff holds.tail.tail]
      by_cases isThird : third = LF
      · rw [if_pos isThird, bind_assoc, sound_counts_iff, and_iff_right (here (cp + 3) (by omega)),
          isFirst, isSecond, isThird, if_pos ⟨rfl, rfl⟩, pure_bind]
      · rw [if_neg isThird, if_neg (by simp [isThird])]
    · rw [if_neg isSecond, if_neg (by simp [isSecond])]
  · rw [if_neg isFirst, if_neg (by simp [isFirst])]

theorem behindBlankLine_suffix {body : Bytes} (found : behindBlankLine text = some body) :
    ∃ front, text = front ++ body ∧ 3 ≤ front.length := by
  induction text with
  | nil => cases found
  | cons byte text hypothesis =>
      rw [behindBlankLine] at found
      split at found
      · rename_i isEnd
        cases found
        refine ⟨byte :: text.take 2, ?_, ?_⟩
        · rw [List.cons_append, List.take_append_drop]
        · rw [isEnd.2]
          exact le_refl 3
      · rcases hypothesis found with ⟨front, rfl, long⟩
        exact ⟨byte :: front, rfl, Nat.le_succ_of_le long⟩

theorem length_behindBlankLine {body : Bytes} (found : behindBlankLine text = some body) :
    body.length + 3 ≤ text.length := by
  rcases behindBlankLine_suffix found with ⟨front, rfl, long⟩
  rw [List.length_append]
  omega

theorem Buffer.Holds.body {datsz : Nat} {body : Bytes} (holds : buffer.Holds cp text)
    (found : behindBlankLine text = some body) (right : datsz = buffer.received) :
    buffer.Holds (datsz - body.length) body := by
  rcases behindBlankLine_suffix found with ⟨front, rfl, _⟩
  have ends := holds.ends
  rw [List.length_append] at ends
  have isStart : datsz - body.length = cp + front.length := by omega
  rw [isStart]
  exact holds.drop

/-- Where the end of the header is missing, the loop stops in front of `datsz`. -/
theorem sound_seekEnd_of_none {datsz bufsz : Nat} (sized : bufsz = buffer.size)
    (right : datsz = buffer.received) (holds : buffer.Holds cp text) (notEmpty : text ≠ [])
    (mayCut : cut) (nothing : behindBlankLine text = none) {more : Bool × Nat → Reader Result}
    (goesOn : ∀ front back, text = front ++ back → back ≠ [] →
      SoundRun cut post (more (false, cp + front.length)) buffer) :
    SoundRun cut post (seekEnd datsz bufsz rounds cp >>= more) buffer := by
  induction rounds generalizing cp text with
  | zero => exact ⟨⟨trivial, fun _ => mayCut⟩, fun never => nomatch (never : Empty)⟩
  | succ rounds hypothesis =>
      rcases List.exists_cons_of_ne_nil notEmpty with ⟨byte, text, rfl⟩
      by_cases long : 2 ≤ text.length
      · have later : ¬ (byte = LF ∧ text.take 2 = [CR, LF]) := by
          intro isEnd
          rw [behindBlankLine, if_pos isEnd] at nothing
          cases nothing
        rw [sound_seekEnd_iff sized right holds long, if_neg later]
        apply hypothesis holds.tail
        · rintro rfl
          simp at long
        · rw [behindBlankLine, if_neg later] at nothing
          exact nothing
        · intro front back split notNil
          have stops := goesOn (byte :: front) back (by rw [split, List.cons_append]) notNil
          rw [List.length_cons, Nat.add_comm front.length, ← Nat.add_assoc] at stops
          exact stops
      · have received := holds.lt_received
        have ends := holds.ends
        have fits := holds.fits
        rw [List.length_cons] at ends
        have here : Sound (.counts (some cp) datsz bufsz) buffer := by
          refine ⟨fun other isOther => ?_, ?_, right, sized⟩
          · cases isOther
            omega
          · omega
        have short : ¬ cp + 2 < datsz := by omega
        rw [seekEnd, bind_assoc, sound_counts_iff, and_iff_right here, if_neg short, pure_bind]
        exact goesOn [] (byte :: text) rfl (List.cons_ne_nil _ _)

theorem sound_seekEnd_of_some {datsz bufsz : Nat} (sized : bufsz = buffer.size)
    (right : datsz = buffer.received) (holds : buffer.Holds cp text) {body : Bytes}
    (found : behindBlankLine text = some body) (enough : text.length < rounds)
    (more : Bool × Nat → Reader Result) :
    SoundRun cut post (seekEnd datsz bufsz rounds cp >>= more) buffer ↔
      SoundRun cut post (more (true, datsz - body.length)) buffer := by
  induction text generalizing cp rounds with
  | nil => cases found
  | cons byte text hypothesis =>
      cases rounds with
      | zero => cases enough
      | succ rounds =>
          have received := holds.lt_received
          have ends := holds.ends
          have shorter := length_behindBlankLine found
          rw [List.length_cons] at ends shorter
          rw [sound_seekEnd_iff sized right holds (by omega)]
          rw [behindBlankLine] at found
          split at found
          · cases found
            rw [if_pos ‹_›]
            have isBehind : cp + 3 = datsz - (text.drop 2).length := by
              rw [List.length_drop] at shorter ⊢
              omega
            rw [isBehind]
          · rw [if_neg ‹_›]
            exact hypothesis holds.tail found (Nat.lt_of_succ_lt_succ enough)

theorem sound_findEnd_of_none {cursor : Cursor} (sized : cursor.bufsz = buffer.size)
    (right : cursor.datsz = buffer.received) (holds : buffer.Holds cursor.i text)
    (notEmpty : text ≠ []) (mayCut : cut) (nothing : behindBlankLine text = none)
    (more : Option Cursor → Reader Result) :
    SoundRun cut post (findEnd rounds cursor >>= more) buffer := by
  induction rounds generalizing cursor text with
  | zero => exact ⟨⟨trivial, fun _ => mayCut⟩, fun never => nomatch (never : Empty)⟩
  | succ rounds hypothesis =>
      rw [findEnd, bind_assoc]
      rw [sound_lookForEnd_iff, bind_assoc]
      apply sound_seekEnd_of_none sized right holds notEmpty mayCut nothing
      rintro front back rfl notNil
      have behind := holds.drop
      rcases List.exists_cons_of_ne_nil notNil with ⟨byte, rest, rfl⟩
      have received := behind.lt_received
      have notNeeded : decide (cursor.i + front.length ≥ cursor.datsz) = false :=
        decide_eq_false (by omega)
      dsimp only
      rw [notNeeded, bind_assoc, getMoreIf_false]
      dsimp only
      rw [if_neg Bool.false_ne_true]
      exact @hypothesis _ { cursor with i := cursor.i + front.length } sized right behind notNil
        (behindBlankLine_append nothing)

theorem sound_findEnd_of_body {cursor : Cursor} (sized : cursor.bufsz = buffer.size)
    (right : cursor.datsz = buffer.received) (holds : buffer.Holds cursor.i text) {body : Bytes}
    (found : behindBlankLine text = some body) (notEmpty : body ≠ [])
    (enough : text.length + 1 < rounds) (more : Option Cursor → Reader Result) :
    SoundRun cut post (findEnd rounds cursor >>= more) buffer ↔
      SoundRun cut post (more (some { cursor with i := cursor.datsz - body.length })) buffer := by
  cases rounds with
  | zero => omega
  | succ rounds =>
      have positiveLength := List.length_pos_of_ne_nil notEmpty
      have shorter := length_behindBlankLine found
      have ends := holds.ends
      have notNeeded : decide (cursor.datsz - body.length ≥ cursor.datsz) = false :=
        decide_eq_false (by omega)
      rw [findEnd, bind_assoc, sound_lookForEnd_iff, bind_assoc,
        sound_seekEnd_of_some sized right holds found (by omega)]
      dsimp only
      rw [bind_assoc, notNeeded, getMoreIf_false]
      dsimp only
      rw [if_pos rfl, pure_bind]

/-- If the header is all that has come, the code asks for more. -/
theorem sound_findEnd_of_noBody {cursor : Cursor} (sized : cursor.bufsz = buffer.size)
    (right : cursor.datsz = buffer.received) (positive : 0 < cursor.i)
    (holds : buffer.Holds cursor.i text) (found : behindBlankLine text = some [])
    (enough : text.length + 1 < rounds) (notEmpty : ∀ piece ∈ buffer.pieces, piece ≠ [])
    {more : Option Cursor → Reader Result} (stops : ∀ after, SoundRun cut post (more none) after) :
    SoundRun cut post (findEnd rounds cursor >>= more) buffer ↔ buffer.pieces = [] := by
  cases rounds with
  | zero => omega
  | succ rounds =>
      have shorter := length_behindBlankLine found
      have ends := holds.ends
      have fits := holds.fits
      have needed : decide (cursor.datsz - ([] : Bytes).length ≥ cursor.datsz) = true :=
        decide_eq_true (le_refl _)
      rw [findEnd, bind_assoc, sound_lookForEnd_iff, bind_assoc,
        sound_seekEnd_of_some sized right holds found (by omega)]
      dsimp only
      rw [bind_assoc, needed]
      apply @sound_getMoreIf_iff _ _ _ _ { cursor with i := cursor.datsz } sized right
      · dsimp only
        omega
      · dsimp only
        omega
      · exact notEmpty
      · exact stops

/-! ## The whole response -/

theorem sound_loadAt_iff (fits : buffer.received ≤ buffer.size) (index : Nat)
    (more : Byte → Reader Result) :
    SoundRun cut post (Reader.load index >>= more) buffer ↔
      index < buffer.received ∧ SoundRun cut post (more (buffer.memory index)) buffer := by
  by_cases received : index < buffer.received
  · exact sound_perform_iff (Answers.of_load (received.trans_le fits)) more
  · exact iff_of_false (fun sound => received sound.1.1) fun both => received both.1

/-- `ntohs` of the bytes at a position. -/
def shortIn (text : Bytes) (index : Nat) : Int :=
  (text.getD index 0).toNat * 256 + (text.getD (index + 1) 0).toNat

/-- `ntohl` of the bytes at a position, as an `int32_t`. -/
def longIn (text : Bytes) (index : Nat) : Int :=
  (shortIn text index * 65536 + shortIn text (index + 2)).bmod (2 ^ 32)

/-- An IPP response with the job's id and a status that is a success. -/
def accepts (jobid : Int) (body : Bytes) : Bool :=
  decide (longIn body 4 = jobid) && STATCLASS_OK (shortIn body 2)

theorem Buffer.Holds.getD (holds : buffer.Holds cp text) {index : Nat} (inside : index < text.length) :
    buffer.memory (cp + index) = text.getD index 0 := by
  rw [holds.cells index inside, List.getD_eq_getElem?_getD, List.getElem?_eq_getElem inside,
    Option.getD_some]

theorem sound_loadShort_iff (holds : buffer.Holds cp text) (notEmpty : text ≠ []) (index : Nat)
    (more : Int → Reader Result) :
    SoundRun cut post (loadShort (cp + index) >>= more) buffer ↔
      index + 1 < text.length ∧ SoundRun cut post (more (shortIn text index)) buffer := by
  have ends := holds.ends
  have positiveLength := List.length_pos_of_ne_nil notEmpty
  rw [loadShort, bind_assoc, sound_loadAt_iff holds.fits, bind_assoc, sound_loadAt_iff holds.fits,
    pure_bind]
  by_cases inside : index + 1 < text.length
  · have first : cp + index < buffer.received := by omega
    have second : cp + index + 1 < buffer.received := by omega
    rw [and_iff_right first, and_iff_right second, and_iff_right inside, shortIn,
      holds.getD (Nat.lt_of_succ_lt inside), Nat.add_assoc, holds.getD inside]
  · apply iff_of_false
    · rintro ⟨_, second, _⟩
      omega
    · exact fun both => inside both.1

theorem sound_loadLong_iff (holds : buffer.Holds cp text) (notEmpty : text ≠ []) (index : Nat)
    (more : Int → Reader Result) :
    SoundRun cut post (loadLong (cp + index) >>= more) buffer ↔
      index + 3 < text.length ∧ SoundRun cut post (more (longIn text index)) buffer := by
  rw [loadLong, bind_assoc, sound_loadShort_iff holds notEmpty, bind_assoc, Nat.add_assoc,
    sound_loadShort_iff holds notEmpty, pure_bind, longIn, ← and_assoc]
  apply and_congr_left
  intro _
  omega

end Loops

section Response

variable {cut : Prop} {buffer : Buffer} {rounds : Nat} {text : Bytes} {cursor : Cursor}

theorem sound_ippHeader_iff {post : Bool → Buffer → Prop} {jobid : Int}
    (holds : buffer.Holds cursor.i text) (notEmpty : text ≠ []) :
    SoundRun cut post (ippHeader jobid cursor) buffer ↔
      8 ≤ text.length ∧ post (accepts jobid text) buffer := by
  have result : SoundRun cut post (pure (accepts jobid text)) buffer ↔
      post (accepts jobid text) buffer := Iff.rfl
  rw [ippHeader, sound_loadShort_iff holds notEmpty, sound_loadLong_iff holds notEmpty, ← result,
    ← and_assoc, accepts]
  apply and_congr_left
  intro _
  omega

theorem sound_ippResponse_iff {jobid len : Int} (sized : cursor.bufsz = buffer.size)
    (right : cursor.datsz = buffer.received) (positive : 0 < cursor.i)
    (holds : buffer.Holds cursor.i text) (inside : cursor.i ≤ cursor.datsz)
    (enough : text.length + 1 < rounds) (notEmpty : ∀ piece ∈ buffer.pieces, piece ≠ []) :
    SoundRun True (fun _ _ => True) (ippResponse rounds jobid len cursor) buffer ↔
      BodyContained len text buffer.pieces := by
  have ends := holds.ends
  have fits := holds.fits
  rw [ippResponse, BodyContained]
  by_cases isEmpty : text = []
  · subst isEmpty
    rw [List.length_nil] at ends
    have needed : decide (cursor.i ≥ cursor.datsz) = true := decide_eq_true (by omega)
    rw [needed, if_pos rfl]
    exact sound_getMoreIf_iff sized right positive (by omega) notEmpty fun _ => trivial
  · have positiveLength := List.length_pos_of_ne_nil isEmpty
    have notNeeded : decide (cursor.i ≥ cursor.datsz) = false := decide_eq_false (by omega)
    rw [notNeeded, getMoreIf_false, if_neg isEmpty]
    dsimp only
    cases ended : behindBlankLine text with
    | none => exact iff_of_true (sound_findEnd_of_none sized right holds isEmpty trivial ended _) trivial
    | some body =>
        have shorter := length_behindBlankLine ended
        have stops : ∀ after, SoundRun True (fun _ _ => True) (pure false : Reader Bool) after :=
          fun _ => trivial
        by_cases noBody : body = []
        · subst noBody
          rw [sound_findEnd_of_noBody sized right positive holds ended enough notEmpty stops]
          dsimp only
          rw [if_pos (Or.inl rfl)]
        · have bodyLength := List.length_pos_of_ne_nil noBody
          have isRest : (cursor.datsz : Int) - (cursor.datsz - body.length : Nat) = body.length := by
            omega
          rw [sound_findEnd_of_body sized right holds ended noBody enough]
          dsimp only
          rw [isRest]
          by_cases short : (body.length : Int) < len
          · rw [if_pos (Or.inr short), decide_eq_true short]
            exact @sound_getMoreIf_iff _ _ _ _ { cursor with i := cursor.datsz - body.length } sized
              right (by dsimp only; omega) (by dsimp only; omega) notEmpty _ stops
          · rw [if_neg (not_or.mpr ⟨noBody, short⟩), decide_eq_false short, getMoreIf_false]
            have header := @sound_ippHeader_iff True _ _ { cursor with i := cursor.datsz - body.length }
              (fun _ _ => True) jobid (holds.body ended right) noBody
            rw [and_true] at header
            exact header

/-- The Content-Length is found and cut off, and the rest is left. -/
theorem sound_field_iff {post : Bool → Buffer → Prop} {jobid : Int} {needed : Int → Bytes → Prop}
    (sized : cursor.bufsz = buffer.size) (right : cursor.datsz = buffer.received)
    (holds : buffer.Holds cursor.i text) (inside : cursor.i ≤ cursor.datsz)
    (enough : text.length + 1 < rounds)
    (later : ∀ contentlen rest i after, (behindName text).bind numberIn = some (contentlen, rest) →
      after.size = buffer.size → after.received = buffer.received → after.pieces = buffer.pieces →
      0 < i → i ≤ cursor.datsz → after.Holds i rest → rest.length < text.length →
      (SoundRun cut post (ippResponse rounds jobid (atoi contentlen) { cursor with i := i }) after ↔
        needed (atoi contentlen) rest)) :
    SoundRun cut post (ippStatus rounds jobid cursor) buffer ↔
      match (behindName text).bind numberIn with
      | none => False
      | some (contentlen, rest) => needed (atoi contentlen) rest := by
  rw [ippStatus, sound_contentLength_iff sized right holds inside enough]
  cases field : (behindName text).bind numberIn with
  | none => simp
  | some found =>
      rcases found with ⟨contentlen, rest⟩
      rcases field_suffix field with ⟨front, byte, rfl⟩
      have ends := holds.ends
      have fits := holds.fits
      rw [List.length_append, List.length_cons] at ends enough
      have isBehind : cursor.datsz - rest.length - 1 = cursor.i + front.length := by omega
      have isStart : cursor.datsz - rest.length = cursor.i + front.length + 1 := by omega
      have shorter : rest.length < (front ++ byte :: rest).length := by
        rw [List.length_append, List.length_cons]
        omega
      have response := later contentlen rest (cursor.i + front.length + 1)
        (buffer.put (cursor.i + front.length) 0) field rfl rfl rfl (Nat.succ_pos _) (by omega)
        (holds.put 0).drop.tail shorter
      dsimp only
      rw [← response]
      constructor
      · rintro ⟨_, _, ⟨⟩, sound⟩
        rw [isBehind, isStart] at sound
        exact sound
      · intro sound
        refine ⟨contentlen, rest, rfl, ?_⟩
        rw [isBehind, isStart]
        exact sound

/-- What an IPP response needs is there. -/
theorem sound_ippStatus_iff {jobid : Int} (sized : cursor.bufsz = buffer.size)
    (right : cursor.datsz = buffer.received) (holds : buffer.Holds cursor.i text)
    (inside : cursor.i ≤ cursor.datsz) (enough : text.length + 1 < rounds)
    (notEmpty : ∀ piece ∈ buffer.pieces, piece ≠ []) :
    SoundRun True (fun _ _ => True) (ippStatus rounds jobid cursor) buffer ↔
      HeaderContained text buffer.pieces := by
  apply @sound_field_iff _ _ _ _ _ _ _ (fun len rest => BodyContained len rest buffer.pieces) sized right
    holds inside enough
  intro contentlen rest i after _ isSize isReceived isPieces positive below behind shorter
  rw [← isPieces] at notEmpty ⊢
  exact @sound_ippResponse_iff after rounds rest { cursor with i := i } jobid (atoi contentlen)
    (sized.trans isSize.symm) (right.trans isReceived.symm) positive behind below (by omega) notEmpty

theorem Buffer.take_holds {piece : Bytes} (pieces : List Bytes) (fits : piece.length ≤ IOBUFSZ)
    (sized : buffer.size = IOBUFSZ) : (buffer.take 0 IOBUFSZ piece pieces).Holds 0 piece where
  cells := by
    intro index inside
    rw [Buffer.take, Buffer.fill, List.take_of_length_le fits]
    dsimp only
    rw [if_pos (Nat.zero_le _), Nat.zero_add, Nat.sub_zero, List.getD_eq_getElem?_getD,
      List.getElem?_eq_getElem inside, Option.getD_some]
  ends := by
    rw [Buffer.take, Buffer.fill, List.take_of_length_le fits]
    simp
  fits := by
    rw [Buffer.take, Buffer.fill, List.take_of_length_le fits]
    dsimp only
    rw [if_pos rfl, Nat.zero_add, sized]
    exact fits

theorem Buffer.take_pieces {piece : Bytes} (pieces : List Bytes) (fits : piece.length ≤ IOBUFSZ) :
    (buffer.take 0 IOBUFSZ piece pieces).pieces = pieces := if_pos fits

theorem headerContained_nul (header : Bytes) (pieces : List Bytes) :
    HeaderContained (0 :: header) pieces = HeaderContained header pieces := by
  have notC : ¬ ((0 : Byte) = 67 ∨ (0 : Byte) = 99) := by decide
  rw [HeaderContained, behindName, if_neg notC, HeaderContained]

/-- The buffer where the status line has been cut off and `header` is left. -/
structure AtHeader (piece header : Bytes) (pieces : List Bytes) (cp : Nat) (buffer : Buffer) : Prop where
  sized : buffer.size = IOBUFSZ
  isPieces : buffer.pieces = pieces
  isReceived : buffer.received = piece.length
  positive : 0 < cp
  holds : buffer.Holds cp (0 :: header)

section Piece

variable {post : Bool → Buffer → Prop} {jobid : Int} {piece : Bytes} {again : Reader Bool}
  {later : Prop} {success : Bytes → Prop}

/-- The HTTP status is read, where it and its line have been cut off. -/
theorem sound_code_iff {start reasonAt cp : Nat} {statcode reason header : Bytes}
    (sized : buffer.size = IOBUFSZ) (isReceived : buffer.received = piece.length)
    (holds : buffer.Holds start (statcode ++ 0 :: (reason ++ 0 :: header)))
    (isReason : reasonAt = start + statcode.length + 1) (isBehind : cp = reasonAt + reason.length)
    (areDigits : ∀ digit ∈ statcode, isDigit digit = true) (enough : IOBUFSZ + 1 < rounds)
    (fails : HTTP_INFO (atoi statcode) = false → HTTP_SUCCESS (atoi statcode) = false →
      ∀ after, post false after)
    (next : HTTP_INFO (atoi statcode) = true → (SoundRun cut post again buffer ↔ later))
    (succeeds : HTTP_INFO (atoi statcode) = false → HTTP_SUCCESS (atoi statcode) = true →
      AtHeader piece header buffer.pieces cp buffer →
      (SoundRun cut post (ippStatus rounds jobid ⟨cp, piece.length, IOBUFSZ⟩) buffer ↔ success header)) :
    SoundRun cut post (do
        let code ← readString rounds start
        if HTTP_INFO (atoi code) then again
        else if HTTP_SUCCESS (atoi code) then ippStatus rounds jobid ⟨cp, piece.length, IOBUFSZ⟩
        else do
          Reader.store piece.length 0
          let _ ← readString rounds reasonAt
          return false) buffer ↔
      if HTTP_INFO (atoi statcode) then later
      else if HTTP_SUCCESS (atoi statcode) then success header
      else piece.length < IOBUFSZ := by
  have fits := holds.fits
  have ends := holds.ends
  rw [List.length_append, List.length_cons, List.length_append, List.length_cons] at ends
  have noNul : ∀ digit ∈ statcode, digit ≠ 0 := by
    rintro digit member rfl
    exact absurd (areDigits 0 member) (by decide)
  have enoughCode : (statcode ++ 0 :: (reason ++ 0 :: header)).length < rounds := by
    rw [List.length_append, List.length_cons, List.length_append, List.length_cons]
    omega
  have reasonHolds := holds.drop.tail
  have headerHolds := reasonHolds.drop
  rw [← isReason] at reasonHolds headerHolds
  rw [← isBehind] at headerHolds
  rw [sound_readString_iff holds enoughCode, cString_append noNul, and_iff_right (by simp)]
  by_cases isInfo : HTTP_INFO (atoi statcode) = true
  · rw [if_pos isInfo, if_pos isInfo]
    exact next isInfo
  rw [if_neg isInfo, if_neg isInfo]
  by_cases succeeded : HTTP_SUCCESS (atoi statcode) = true
  · rw [if_pos succeeded, if_pos succeeded]
    have positive : 0 < cp := by omega
    exact succeeds (Bool.eq_false_of_not_eq_true isInfo) succeeded
      ⟨sized, rfl, isReceived, positive, headerHolds⟩
  rw [if_neg succeeded, if_neg succeeded]
  by_cases room : piece.length < IOBUFSZ
  · have kept := @Buffer.Holds.put_outside _ _ _ reasonHolds piece.length 0 (Or.inr isReceived.le)
    have enoughReason : (reason ++ 0 :: header).length < rounds := by
      rw [List.length_append, List.length_cons]
      omega
    rw [sound_store_iff (room.trans_eq sized.symm), sound_readString_iff kept enoughReason]
    exact iff_of_true ⟨by simp, fails (Bool.eq_false_of_not_eq_true isInfo)
      (Bool.eq_false_of_not_eq_true succeeded) _⟩ room
  · apply iff_of_false _ room
    intro sound
    have written : piece.length < buffer.size := sound.1.1
    exact room (written.trans_eq sized)

/-- What stands behind the digits of the HTTP status, which have been cut off. -/
theorem sound_line_iff {start : Nat} {statcode reason : Bytes} {byte : Byte}
    (sized : buffer.size = IOBUFSZ) (isReceived : buffer.received = piece.length)
    (holds : buffer.Holds start (statcode ++ byte :: reason))
    (areDigits : ∀ digit ∈ statcode, isDigit digit = true) (enough : IOBUFSZ + 1 < rounds)
    (fails : HTTP_INFO (atoi statcode) = false → HTTP_SUCCESS (atoi statcode) = false →
      ∀ after, post false after)
    (next : HTTP_INFO (atoi statcode) = true → ∀ after : Buffer, after.size = IOBUFSZ →
      after.pieces = buffer.pieces → (SoundRun cut post again after ↔ later))
    (succeeds : HTTP_INFO (atoi statcode) = false → HTTP_SUCCESS (atoi statcode) = true →
      ∀ header cp after, behindLine reason = some header →
      AtHeader piece header buffer.pieces cp after →
      (SoundRun cut post (ippStatus rounds jobid ⟨cp, piece.length, IOBUFSZ⟩) after ↔ success header)) :
    SoundRun cut post (do
        let cp ← skipWhile isInLine rounds (start + statcode.length + 1)
        Reader.store cp 0
        let code ← readString rounds start
        if HTTP_INFO (atoi code) then again
        else if HTTP_SUCCESS (atoi code) then ippStatus rounds jobid ⟨cp, piece.length, IOBUFSZ⟩
        else do
          Reader.store piece.length 0
          let _ ← readString rounds (start + statcode.length + 1)
          return false) (buffer.put (start + statcode.length) 0) ↔
      match behindLine reason with
      | none => False
      | some header =>
          if HTTP_INFO (atoi statcode) then later
          else if HTTP_SUCCESS (atoi statcode) then success header
          else piece.length < IOBUFSZ := by
  have fits := holds.fits
  have ends := holds.ends
  rw [List.length_append, List.length_cons] at ends
  have whole := holds.put 0
  have line := whole.drop.tail
  have shorter : reason.length < rounds := by omega
  have cutLine : behindLine reason = match reason.dropWhile isInLine with
      | [] => none
      | _ :: header => some header := rfl
  rw [sound_skipWhile_iff isInLine line shorter]
  cases isBehind : reason.dropWhile isInLine with
  | nil =>
      rw [isBehind] at cutLine
      rw [cutLine]
      simp
  | cons last header =>
      rw [isBehind] at cutLine
      have split : reason = reason.takeWhile isInLine ++ last :: header := by
        rw [← isBehind, List.takeWhile_append_dropWhile]
      have lengths := congrArg List.length split
      rw [List.length_append, List.length_cons] at lengths
      rw [cutLine, and_iff_right (List.cons_ne_nil _ _)]
      generalize reason.takeWhile isInLine = text at split lengths ⊢
      have isWhole : ∀ last : Byte, statcode ++ 0 :: (text ++ last :: header) =
          (statcode ++ 0 :: text) ++ last :: header := by
        intro last
        rw [List.append_assoc, List.cons_append]
      have isEnd : start + (statcode ++ 0 :: text).length = start + statcode.length + 1 + text.length := by
        rw [List.length_append, List.length_cons]
        omega
      rw [split, isWhole] at whole
      have ended := whole.put 0
      rw [isEnd, ← isWhole] at ended
      have room : start + statcode.length + 1 + text.length <
          (buffer.put (start + statcode.length) 0).size := by
        rw [Buffer.put_size]
        omega
      rw [sound_store_iff room]
      apply sound_code_iff _ _ ended rfl rfl areDigits enough fails
      · exact fun isInfo => next isInfo _ sized rfl
      · exact fun notInfo succeeded => succeeds notInfo succeeded header _ _ cutLine
      · exact sized
      · exact isReceived

theorem sound_readResponse_iff (sized : buffer.size = IOBUFSZ) (holds : buffer.Holds 0 piece)
    (enough : IOBUFSZ + 1 < rounds)
    (fails : ∀ statcode reason, numberIn (piece.drop 8) = some (statcode, reason) →
      HTTP_INFO (atoi statcode) = false → HTTP_SUCCESS (atoi statcode) = false →
      ∀ after, post false after)
    (next : ∀ statcode reason, numberIn (piece.drop 8) = some (statcode, reason) →
      statcode = [] ∨ HTTP_INFO (atoi statcode) = true → ∀ after : Buffer, after.size = IOBUFSZ →
      after.pieces = buffer.pieces → (SoundRun cut post again after ↔ later))
    (succeeds : ∀ statcode reason, numberIn (piece.drop 8) = some (statcode, reason) →
      HTTP_INFO (atoi statcode) = false → HTTP_SUCCESS (atoi statcode) = true →
      ∀ header cp after, behindLine reason = some header →
      AtHeader piece header buffer.pieces cp after →
      (SoundRun cut post (ippStatus rounds jobid ⟨cp, piece.length, IOBUFSZ⟩) after ↔ success header)) :
    SoundRun cut post (readResponse rounds jobid piece.length again) buffer ↔
      PieceContained success piece later := by
  have isReceived : buffer.received = piece.length := by
    have ends := holds.ends
    omega
  have short : piece.length ≤ IOBUFSZ := by
    have fits := holds.fits
    omega
  have here : Sound (.counts none piece.length IOBUFSZ) buffer :=
    ⟨nofun, short, isReceived.symm, sized.symm⟩
  have status := holds.dropAt 8
  rw [Nat.zero_add] at status
  have statusLength : (piece.drop 8).length < rounds := by
    rw [List.length_drop]
    omega
  rw [readResponse, sound_counts_iff, and_iff_right here, PieceContained]
  apply (sound_number_iff status statusLength _).trans
  cases number : numberIn (piece.drop 8) with
  | none => simp
  | some found =>
      rcases found with ⟨statcode, reason⟩
      have only : ∀ property : Bytes → Prop,
          (∃ digits following, some (statcode, reason) = some (digits, following) ∧
            property digits) ↔ property statcode := by
        intro property
        constructor
        · rintro ⟨_, _, ⟨⟩, has⟩
          exact has
        · exact fun has => ⟨_, _, rfl, has⟩
      rcases numberIn_eq_some number with ⟨byte, split, areDigits, _⟩
      rw [only]
      dsimp only
      by_cases noDigits : statcode = []
      · have whole : piece.length < rounds := by omega
        subst noDigits
        rw [if_pos rfl, if_pos (by simp), sound_readString_iff holds whole]
        apply and_congr_right
        intro _
        exact next _ _ number (Or.inl rfl) buffer sized rfl
      · have positiveLength := List.length_pos_of_ne_nil noDigits
        have differ : 8 + ((piece.drop 8).takeWhile isSpace).length + statcode.length ≠
            8 + ((piece.drop 8).takeWhile isSpace).length := by omega
        have lengths := congrArg List.length split
        rw [List.append_assoc] at split
        rw [split] at status
        have found := status.drop
        rw [List.length_append, List.length_append, List.length_cons, List.length_drop] at lengths
        rw [if_neg noDigits, if_neg differ, sound_store_iff (by omega)]
        apply sound_line_iff sized isReceived found areDigits enough (fails _ _ number)
        · exact fun isInfo => next _ _ number (Or.inr isInfo)
        · exact succeeds _ _ number

/-- One round of the loop, with the piece that it reads. -/
theorem sound_round_iff {pieces : List Bytes} (sized : buffer.size = IOBUFSZ)
    (isPieces : buffer.pieces = piece :: pieces) (notEmpty : piece ≠ [])
    (short : piece.length ≤ IOBUFSZ) (enough : IOBUFSZ + 1 < rounds)
    (fails : ∀ statcode reason, numberIn (piece.drop 8) = some (statcode, reason) →
      HTTP_INFO (atoi statcode) = false → HTTP_SUCCESS (atoi statcode) = false →
      ∀ after, post false after)
    (next : ∀ statcode reason, numberIn (piece.drop 8) = some (statcode, reason) →
      statcode = [] ∨ HTTP_INFO (atoi statcode) = true → ∀ after : Buffer, after.size = IOBUFSZ →
      after.pieces = pieces → (SoundRun cut post (printerStatus rounds jobid) after ↔ later))
    (succeeds : ∀ statcode reason, numberIn (piece.drop 8) = some (statcode, reason) →
      HTTP_INFO (atoi statcode) = false → HTTP_SUCCESS (atoi statcode) = true →
      ∀ header cp after, behindLine reason = some header → AtHeader piece header pieces cp after →
      (SoundRun cut post (ippStatus rounds jobid ⟨cp, piece.length, IOBUFSZ⟩) after ↔ success header)) :
    SoundRun cut post (printerStatus (rounds + 1) jobid) buffer ↔ PieceContained success piece later := by
  have fits : 0 + IOBUFSZ ≤ buffer.size := by omega
  have room : 0 < IOBUFSZ := by decide
  have samePieces := @Buffer.take_pieces buffer piece pieces short
  rw [printerStatus, sound_tread_some_iff isPieces notEmpty room fits, List.take_of_length_le short]
  rw [← samePieces] at next succeeds
  exact sound_readResponse_iff sized (Buffer.take_holds pieces short sized) enough fails next succeeds

theorem AtHeader.sound_iff {header : Bytes} {pieces : List Bytes} {cp : Nat}
    (atHeader : AtHeader piece header pieces cp buffer) (short : piece.length ≤ IOBUFSZ)
    (enough : IOBUFSZ + 1 < rounds) (notEmpty : ∀ other ∈ pieces, other ≠ []) :
    SoundRun True (fun _ _ => True) (ippStatus rounds jobid ⟨cp, piece.length, IOBUFSZ⟩) buffer ↔
      HeaderContained header pieces := by
  rcases atHeader with ⟨sized, rfl, isReceived, positive, holds⟩
  have received := holds.lt_received
  have left : (0 :: header).length + 1 < rounds := by
    rw [holds.ends]
    omega
  have success := @sound_ippStatus_iff buffer rounds (0 :: header)
    ⟨cp, piece.length, IOBUFSZ⟩ jobid sized.symm isReceived.symm holds
    (received.le.trans_eq isReceived) left notEmpty
  rw [headerContained_nul] at success
  exact success

end Piece

end Response

/-- What a `read` into the buffer returns. -/
structure Chunk where
  bytes : Bytes
  notEmpty : bytes ≠ []
  short : bytes.length ≤ IOBUFSZ

theorem sound_printerStatus_iff {buffer : Buffer} {rounds : Nat} {jobid : Int} {chunks : List Chunk}
    (sized : buffer.size = IOBUFSZ) (isPieces : buffer.pieces = chunks.map Chunk.bytes)
    (enough : chunks.length + IOBUFSZ + 2 < rounds) :
    SoundRun True (fun _ _ => True) (printerStatus rounds jobid) buffer ↔
      SelfContained (chunks.map Chunk.bytes) := by
  have fits : 0 + IOBUFSZ ≤ buffer.size := by omega
  induction chunks generalizing buffer rounds with
  | nil =>
      cases rounds with
      | zero => cases enough
      | succ rounds =>
          rw [printerStatus, sound_tread_none_iff isPieces fits]
          exact iff_of_true trivial trivial
  | cons chunk chunks hypothesis =>
      cases rounds with
      | zero => cases enough
      | succ rounds =>
          have others : ∀ piece ∈ chunks.map Chunk.bytes, piece ≠ [] := by
            intro piece member
            rcases List.mem_map.mp member with ⟨other, _, rfl⟩
            exact other.notEmpty
          rw [List.length_cons] at enough
          apply sound_round_iff sized isPieces chunk.notEmpty chunk.short (by omega) fun _ _ _ _ _ _ => trivial
          · intro _ _ _ _ after isSize isRest
            exact hypothesis isSize isRest (by omega) (by omega)
          · intro _ _ _ _ _ header cp after _ atHeader
            exact atHeader.sound_iff chunk.short (by omega) others

/-- A response whose body comes behind its header, in a piece of its own. -/
def headerThenBody : List Chunk :=
  [⟨text "HTTP/1.1 200 OK\r\nContent-Length: 8\r\n\r\n", by decide, by decide⟩,
    ⟨[1, 1, 0, 0, 0, 0, 0, 1], by decide, by decide⟩]

end Apue.Printer.Status
