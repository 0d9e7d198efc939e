import Apue.Printer.StatusBounds

/-! # What `printer_status` returns

A well-formed stream is some responses with a status `1xx` and one other response.
Where each of them comes in a piece of its own, the result is what the last one says.
-/

namespace Apue.Printer.Status

open Apue.Foundation Ascii

/-! ## Well-formed responses -/

def COLON : Byte := 58

def lineEnd : Bytes := [CR, LF]

structure StatusLine where
  major : Fin 10
  minor : Fin 10
  code : Nat
  reason : Bytes
  threeDigits : 100 ≤ code ∧ code < 1000
  reasonInLine : ∀ byte ∈ reason, isInLine byte = true

/-- The line up to its CR. -/
def StatusLine.text (line : StatusLine) : Bytes :=
  Ascii.text "HTTP/" ++ [digitByte line.major, 46, digitByte line.minor] ++
    space :: (decimal line.code ++ space :: (line.reason ++ [CR]))

structure Field where
  name : Bytes
  value : Bytes
  nameInLine : ∀ byte ∈ name, isInLine byte = true ∧ byte ≠ COLON
  valueInLine : ∀ byte ∈ value, isInLine byte = true
  named : name ≠ []

def Field.line (field : Field) : Bytes := field.name ++ COLON :: field.value

def fieldsText (fields : List Field) : Bytes := fields.flatMap fun field => field.line ++ lineEnd

/-- A response with a status `1xx`. -/
structure Informational where
  status : StatusLine
  fields : List Field
  isInfo : status.code < 200

def Informational.text (response : Informational) : Bytes :=
  response.status.text ++ LF :: (fieldsText response.fields ++ lineEnd)

def isBlank (byte : Byte) : Bool := byte == 32 || byte == 9

/-- The last response. One of its fields is the length of the body. -/
structure Final where
  status : StatusLine
  before : List Field
  length : Field
  after : List Field
  body : Bytes
  isFinal : 200 ≤ status.code
  isLength : length.name.map toLower = Ascii.text "content-length"
  isValue : ∃ left right, length.value = left ++ decimal body.length ++ right ∧
    (∀ byte ∈ left, isBlank byte = true) ∧ ∀ byte ∈ right, isBlank byte = true
  isBody : 8 ≤ body.length

/-- What stands behind the status line. -/
def Final.header (response : Final) : Bytes :=
  LF :: (fieldsText response.before ++ (response.length.line ++ lineEnd ++
    (fieldsText response.after ++ (lineEnd ++ response.body))))

def Final.text (response : Final) : Bytes := response.status.text ++ response.header

def Final.isSuccess (response : Final) : Bool := HTTP_SUCCESS response.status.code

/-- What the claim demands of the result. -/
def Final.accepted (response : Final) (jobid : Int) : Bool :=
  response.isSuccess && accepts jobid response.body

/-! ## What is found in a response -/

theorem numberIn_of_digits {left digits rest : Bytes} {byte : Byte}
    (areBlank : ∀ blank ∈ left, isSpace blank = true) (notEmpty : digits ≠ [])
    (areDigits : ∀ digit ∈ digits, isDigit digit = true) (notDigit : isDigit byte = false) :
    numberIn (left ++ (digits ++ byte :: rest)) = some (digits, rest) := by
  have onlyLeft : (left ++ (digits ++ byte :: rest)).dropWhile isSpace = digits ++ byte :: rest := by
    rw [List.dropWhile_append_of_pos areBlank]
    rcases List.exists_cons_of_ne_nil notEmpty with ⟨first, others, rfl⟩
    apply List.dropWhile_cons_of_neg
    rw [isSpace_of_isDigit (areDigits first List.mem_cons_self)]
    exact Bool.false_ne_true
  have stops : (byte :: rest).dropWhile isDigit = byte :: rest :=
    List.dropWhile_cons_of_neg (by rw [notDigit]; exact Bool.false_ne_true)
  rw [numberIn, onlyLeft, List.dropWhile_append_of_pos areDigits, stops]
  dsimp only
  rw [takeWhile_append_of_all areDigits (by simp [notDigit])]

theorem behindLine_of_inLine {line rest : Bytes} (inLine : ∀ byte ∈ line, isInLine byte = true) :
    behindLine (line ++ CR :: rest) = some rest := by
  have stops : (CR :: rest).dropWhile isInLine = CR :: rest :=
    List.dropWhile_cons_of_neg (by decide)
  rw [behindLine, List.dropWhile_append_of_pos inLine, stops]

theorem StatusLine.drop_text (line : StatusLine) (rest : Bytes) :
    (line.text ++ rest).drop 8 =
      [space] ++ (decimal line.code ++ space :: (line.reason ++ CR :: rest)) := by
  have isText : line.text ++ rest =
      (Ascii.text "HTTP/" ++ [digitByte line.major, 46, digitByte line.minor]) ++
        ([space] ++ (decimal line.code ++ space :: (line.reason ++ CR :: rest))) := by
    simp [StatusLine.text]
  rw [isText]
  exact List.drop_left' rfl

theorem StatusLine.numberIn_drop (line : StatusLine) (rest : Bytes) :
    numberIn ((line.text ++ rest).drop 8) =
      some (decimal line.code, line.reason ++ CR :: rest) := by
  rw [line.drop_text]
  exact numberIn_of_digits (by simp [isSpace, space]) (decimal_ne_nil _) (decimal_isDigit _) (by decide)

theorem atoi_decimal {number : Nat} (small : number < 2 ^ 31) : atoi (decimal number) = number := by
  have same := @atoi_signedDecimal number (by omega) (by omega)
  rw [signedDecimal, if_neg (by omega)] at same
  exact same

/-! ## The field for the length -/

/-- The name of the field stands somewhere in a line, in whatever case. -/
def Mentions (line : Bytes) : Prop :=
  ∃ front back, line = front ++ back ∧ comparison CONTENT_LENGTH back = some true

theorem comparison_append {expected text rest : Bytes} {same : Bool}
    (compared : comparison expected text = some same) :
    comparison expected (text ++ rest) = some same := by
  induction expected generalizing text with
  | nil => exact compared
  | cons other expected hypothesis =>
      cases text with
      | nil => cases compared
      | cons byte text =>
          rw [comparison] at compared
          rw [List.cons_append, comparison]
          split at compared
          · rw [if_pos ‹_›]
            exact hypothesis compared
          · rw [if_neg ‹_›]
            exact compared

/-- The comparison does not go beyond the end of a line. -/
theorem comparison_line {expected line rest : Bytes} (noCR : CR ∉ expected.map toLower)
    (different : comparison expected line ≠ some true) :
    comparison expected (line ++ CR :: rest) = some false := by
  induction expected generalizing line with
  | nil => exact absurd rfl different
  | cons other expected hypothesis =>
      rw [List.map_cons, List.mem_cons, not_or] at noCR
      cases line with
      | nil =>
          have isCR : toLower CR = CR := by decide
          rw [List.nil_append, comparison, isCR, if_neg noCR.1]
      | cons byte line =>
          rw [comparison] at different
          rw [List.cons_append, comparison]
          split at different
          · rw [if_pos ‹_›]
            exact hypothesis noCR.2 different
          · rw [if_neg ‹_›]

theorem behindName_cons {byte : Byte} (notC : byte ≠ 67 ∧ byte ≠ 99) (rest : Bytes) :
    behindName (byte :: rest) = behindName rest := by
  rw [behindName, if_neg (not_or.mpr notC)]

theorem behindName_line {line : Bytes} (quiet : ¬ Mentions line) (rest : Bytes) :
    behindName (line ++ (lineEnd ++ rest)) = behindName rest := by
  induction line with
  | nil =>
      rw [List.nil_append, lineEnd, List.cons_append, behindName_cons (by decide), List.cons_append,
        behindName_cons (by decide), List.nil_append]
  | cons byte line hypothesis =>
      have others : ¬ Mentions line := by
        rintro ⟨front, back, rfl, compared⟩
        exact quiet ⟨byte :: front, back, rfl, compared⟩
      have here : comparison CONTENT_LENGTH (byte :: line) ≠ some true :=
        fun compared => quiet ⟨[], byte :: line, rfl, compared⟩
      have different := @comparison_line _ _ (LF :: rest) (by decide : CR ∉ CONTENT_LENGTH.map toLower) here
      have isLine : byte :: line ++ (lineEnd ++ rest) = (byte :: line) ++ CR :: LF :: rest := by
        rw [lineEnd]
        rfl
      rw [← isLine, List.cons_append] at different
      rw [List.cons_append, behindName, different, hypothesis others]
      dsimp only
      rw [ite_self]

theorem behindName_fields {fields : List Field} (quiet : ∀ field ∈ fields, ¬ Mentions field.line)
    (rest : Bytes) : behindName (fieldsText fields ++ rest) = behindName rest := by
  induction fields with
  | nil => rfl
  | cons field fields hypothesis =>
      rw [fieldsText, List.flatMap_cons, ← fieldsText, List.append_assoc, List.append_assoc,
        behindName_line (quiet field List.mem_cons_self)]
      exact hypothesis fun other member => quiet other (List.mem_cons_of_mem _ member)

theorem comparison_self {expected text : Bytes} (same : expected.map toLower = text.map toLower) :
    comparison expected text = some true := by
  induction expected generalizing text with
  | nil => rfl
  | cons other expected hypothesis =>
      cases text with
      | nil => cases same
      | cons byte text =>
          rw [List.map_cons, List.map_cons, List.cons.injEq] at same
          rw [comparison, if_pos same.1.symm]
          exact hypothesis same.2

theorem isC_of_toLower {byte : Byte} (lower : toLower byte = 99) : byte = 67 ∨ byte = 99 := by
  rw [toLower] at lower
  split at lower
  · left
    rw [← UInt8.add_sub_cancel byte 32, lower]
    decide
  · exact Or.inr lower

theorem behindName_length (response : Final) (rest : Bytes) :
    behindName (response.length.line ++ rest) = some (response.length.value ++ rest) := by
  have isName := response.isLength
  have compared : comparison CONTENT_LENGTH (response.length.name ++ [COLON]) = some true := by
    apply comparison_self
    rw [List.map_append, isName]
    decide
  have nameLength := congrArg List.length isName
  rw [List.length_map] at nameLength
  have isLine : response.length.line ++ rest =
      (response.length.name ++ [COLON]) ++ (response.length.value ++ rest) := by
    rw [Field.line, List.append_assoc, List.append_assoc]
    rfl
  have whole := @comparison_append _ _ (response.length.value ++ rest) _ compared
  have dropped : ((response.length.name ++ [COLON]) ++ (response.length.value ++ rest)).drop 15 =
      response.length.value ++ rest := by
    apply List.drop_left'
    rw [List.length_append, nameLength]
    rfl
  rw [isLine]
  cases split : response.length.name with
  | nil => exact absurd split response.length.named
  | cons byte name =>
      rw [split, List.map_cons] at isName
      have isC := isC_of_toLower (List.cons.inj isName).1
      rw [split] at whole dropped
      rw [List.cons_append, List.cons_append] at whole dropped ⊢
      rw [behindName, if_pos isC, whole]
      exact congrArg some dropped

/-- The number in the field, and what stands behind the byte that ends it. -/
theorem numberIn_length (response : Final) (rest : Bytes) :
    ∃ behind, numberIn (response.length.value ++ CR :: LF :: rest) =
      some (decimal response.body.length, behind ++ LF :: rest) ∧ LF ∉ behind := by
  rcases response.isValue with ⟨left, right, isValue, leftBlank, rightBlank⟩
  have areSpaces : ∀ blank ∈ left, isSpace blank = true := by
    intro blank member
    have isBlank := leftBlank blank member
    simp only [Status.isBlank, Bool.or_eq_true, beq_iff_eq] at isBlank
    rcases isBlank with rfl | rfl
    · rfl
    · rfl
  rw [isValue, List.append_assoc, List.append_assoc]
  cases right with
  | nil => exact ⟨[], numberIn_of_digits areSpaces (decimal_ne_nil _) (decimal_isDigit _) rfl, by simp⟩
  | cons byte right =>
      have notDigit : isDigit byte = false := by
        have isBlank := rightBlank byte List.mem_cons_self
        simp only [Status.isBlank, Bool.or_eq_true, beq_iff_eq] at isBlank
        rcases isBlank with rfl | rfl
        · rfl
        · rfl
      refine ⟨right ++ [CR], ?_, ?_⟩
      · rw [List.append_assoc]
        exact numberIn_of_digits areSpaces (decimal_ne_nil _) (decimal_isDigit _) notDigit
      · intro member
        rcases List.mem_append.mp member with inRight | isCR
        · exact absurd (rightBlank LF (List.mem_cons_of_mem _ inRight)) (by decide)
        · exact absurd isCR (by decide)

/-! ## The end of the header -/

theorem behindBlankLine_skip {front : Bytes} (noLF : LF ∉ front) (rest : Bytes) :
    behindBlankLine (front ++ rest) = behindBlankLine rest := by
  induction front with
  | nil => rfl
  | cons byte front hypothesis =>
      rw [List.mem_cons, not_or] at noLF
      have notEnd : ¬ (byte = LF ∧ (front ++ rest).take 2 = [CR, LF]) := fun isEnd => noLF.1 isEnd.1.symm
      rw [List.cons_append, behindBlankLine, if_neg notEnd]
      exact hypothesis noLF.2

theorem Field.line_inLine (field : Field) : ∀ byte ∈ field.line, isInLine byte = true := by
  intro byte member
  rw [Field.line, List.mem_append, List.mem_cons] at member
  rcases member with inName | rfl | inValue
  · exact (field.nameInLine byte inName).1
  · decide
  · exact field.valueInLine byte inValue

theorem behindBlankLine_fields (fields : List Field) (body : Bytes) :
    behindBlankLine (LF :: (fieldsText fields ++ (lineEnd ++ body))) = some body := by
  induction fields with
  | nil => rfl
  | cons field fields hypothesis =>
      have inLine := field.line_inLine
      have isText : fieldsText (field :: fields) ++ (lineEnd ++ body) =
          (field.line ++ [CR]) ++ LF :: (fieldsText fields ++ (lineEnd ++ body)) := by
        rw [fieldsText, List.flatMap_cons, ← fieldsText, lineEnd]
        simp only [List.append_assoc, List.cons_append, List.nil_append]
      have noLF : LF ∉ field.line ++ [CR] := by
        intro member
        rcases List.mem_append.mp member with here | isCR
        · exact absurd (inLine LF here) (by decide)
        · exact absurd isCR (by decide)
      have notEnd : ¬ (LF = LF ∧
          ((field.line ++ [CR]) ++ LF :: (fieldsText fields ++ (lineEnd ++ body))).take 2 = [CR, LF]) := by
        rintro ⟨_, isEnd⟩
        have notNil : field.line ≠ [] := List.append_ne_nil_of_left_ne_nil field.named _
        rcases List.exists_cons_of_ne_nil notNil with ⟨first, others, isLine⟩
        rw [isLine, List.cons_append, List.cons_append, List.take_succ_cons] at isEnd
        have isCR := inLine first (by rw [isLine]; exact List.mem_cons_self)
        rw [(List.cons.inj isEnd).1] at isCR
        exact absurd isCR (by decide)
      rw [isText, behindBlankLine, if_neg notEnd, behindBlankLine_skip noLF]
      exact hypothesis

/-! ## The last response in one piece -/

section Whole

variable {buffer : Buffer} {rounds cp : Nat} {jobid : Int} {post : Bool → Buffer → Prop}

theorem Final.found {response : Final} (quiet : ∀ field ∈ response.before, ¬ Mentions field.line) :
    ∃ rest, (behindName response.header).bind Status.numberIn =
        some (decimal response.body.length, rest) ∧
      behindBlankLine rest = some response.body := by
  rcases numberIn_length response (fieldsText response.after ++ (lineEnd ++ response.body)) with
    ⟨behind, isNumber, noLF⟩
  refine ⟨_, ?_, (behindBlankLine_skip noLF _).trans (behindBlankLine_fields response.after _)⟩
  rw [Final.header, behindName_cons (by decide), behindName_fields quiet, List.append_assoc,
    behindName_length]
  exact isNumber

theorem Final.body_lt (response : Final) : response.body.length < response.text.length := by
  simp only [Final.text, Final.header, List.length_append, List.length_cons]
  omega

theorem ippResponse_returns {cursor : Cursor} {body rest : Bytes}
    (sized : cursor.bufsz = buffer.size) (right : cursor.datsz = buffer.received)
    (holds : buffer.Holds cursor.i rest)
    (ended : behindBlankLine rest = some body) (long : 8 ≤ body.length)
    (enough : rest.length + 1 < rounds) (accepted : post (accepts jobid body) buffer) :
    SoundRun False post (ippResponse rounds jobid body.length cursor) buffer := by
  have shorter := length_behindBlankLine ended
  have ends := holds.ends
  have notNeeded : decide (cursor.i ≥ cursor.datsz) = false := decide_eq_false (by omega)
  have noBody : body ≠ [] := List.ne_nil_of_length_pos (by omega)
  have enoughBody : decide ((cursor.datsz : Int) - (cursor.datsz - body.length : Nat) < body.length) =
      false := decide_eq_false (by omega)
  rw [ippResponse, notNeeded, getMoreIf_false]
  dsimp only
  rw [sound_findEnd_of_body sized right holds ended noBody enough]
  dsimp only
  rw [enoughBody, getMoreIf_false]
  exact (@sound_ippHeader_iff False _ _ { cursor with i := cursor.datsz - body.length } post jobid
    (holds.body ended right) noBody).mpr ⟨long, accepted⟩

theorem AtHeader.returns {response : Final} {pieces : List Bytes}
    (quiet : ∀ field ∈ response.before, ¬ Mentions field.line)
    (atHeader : AtHeader response.text response.header pieces cp buffer)
    (short : response.text.length ≤ IOBUFSZ) (enough : IOBUFSZ + 1 < rounds)
    (accepted : ∀ after, post (accepts jobid response.body) after) :
    SoundRun False post (ippStatus rounds jobid ⟨cp, response.text.length, IOBUFSZ⟩) buffer := by
  rcases atHeader with ⟨sized, rfl, isReceived, positive, holds⟩
  rcases response.found quiet with ⟨rest, isField, ended⟩
  have fieldBehind : (behindName (0 :: response.header)).bind Status.numberIn =
      some (decimal response.body.length, rest) := by
    rw [behindName_cons (by decide)]
    exact isField
  have received := holds.lt_received
  have left : (0 :: response.header).length + 1 < rounds := by
    rw [holds.ends]
    omega
  have small : response.body.length < 2 ^ 31 := by
    have bodyShort := response.body_lt.trans_le short
    rw [IOBUFSZ] at bodyShort
    omega
  have whole := @sound_field_iff False buffer rounds (0 :: response.header)
    ⟨cp, response.text.length, IOBUFSZ⟩ post jobid (fun _ _ => True) sized.symm isReceived.symm holds
    (received.le.trans_eq isReceived) left
  rw [fieldBehind] at whole
  apply (whole _).mpr trivial
  rintro contentlen rest i after ⟨⟩ isSize isAll _ _ _ behind shorter
  apply iff_of_true _ trivial
  rw [atoi_decimal small]
  exact @ippResponse_returns after rounds jobid post ⟨i, response.text.length, IOBUFSZ⟩ response.body rest
    (sized.symm.trans isSize.symm) (isReceived.symm.trans isAll.symm) behind ended response.isBody
    (by omega) (accepted after)

/-! ## Rounds of the loop -/

theorem StatusLine.atoi_code (line : StatusLine) : atoi (decimal line.code) = line.code := by
  have digits := line.threeDigits
  exact atoi_decimal (by omega)

theorem pieceContained_status (line : StatusLine) (rest : Bytes) {success : Bytes → Prop} {later : Prop}
    (next : HTTP_INFO line.code = true → later)
    (succeeds : HTTP_SUCCESS line.code = true → success rest)
    (room : HTTP_SUCCESS line.code = false → HTTP_INFO line.code = false →
      (line.text ++ rest).length < IOBUFSZ) :
    PieceContained success (line.text ++ rest) later := by
  rw [PieceContained, line.numberIn_drop]
  dsimp only
  rw [if_neg (decimal_ne_nil _), behindLine_of_inLine line.reasonInLine]
  dsimp only
  rw [line.atoi_code]
  by_cases isInfo : HTTP_INFO line.code = true
  · rw [if_pos isInfo]
    exact next isInfo
  rw [if_neg isInfo]
  by_cases succeeded : HTTP_SUCCESS line.code = true
  · rw [if_pos succeeded]
    exact succeeds succeeded
  · rw [if_neg succeeded]
    exact room (Bool.eq_false_of_not_eq_true succeeded) (Bool.eq_false_of_not_eq_true isInfo)

/-- A round that reads a piece with a whole status line. -/
theorem StatusLine.round {line : StatusLine} {rest : Bytes} {pieces : List Bytes}
    (sized : buffer.size = IOBUFSZ) (isPieces : buffer.pieces = (line.text ++ rest) :: pieces)
    (short : (line.text ++ rest).length ≤ IOBUFSZ) (enough : IOBUFSZ + 1 < rounds)
    (fails : HTTP_INFO line.code = false → HTTP_SUCCESS line.code = false → ∀ after, post false after)
    (next : HTTP_INFO line.code = true → ∀ after : Buffer, after.size = IOBUFSZ →
      after.pieces = pieces → SoundRun False post (printerStatus rounds jobid) after)
    (succeeds : HTTP_INFO line.code = false → HTTP_SUCCESS line.code = true → ∀ cp after,
      AtHeader (line.text ++ rest) rest pieces cp after →
      SoundRun False post (ippStatus rounds jobid ⟨cp, (line.text ++ rest).length, IOBUFSZ⟩) after)
    (room : HTTP_SUCCESS line.code = false → HTTP_INFO line.code = false →
      (line.text ++ rest).length < IOBUFSZ) :
    SoundRun False post (printerStatus (rounds + 1) jobid) buffer := by
  have notEmpty : line.text ++ rest ≠ [] := by simp [StatusLine.text]
  have number := line.numberIn_drop rest
  have round := @sound_round_iff False buffer rounds post jobid (line.text ++ rest) True (fun _ => True)
    pieces sized isPieces notEmpty short enough
  apply (round _ _ _).mpr (pieceContained_status line rest (fun _ => trivial) (fun _ => trivial) room)
  · intro statcode reason found
    cases number.symm.trans found
    rw [line.atoi_code]
    exact fails
  · intro statcode reason found info after isSize isRest
    cases number.symm.trans found
    apply iff_of_true _ trivial
    rcases info with isEmpty | isInfo
    · exact absurd isEmpty (decimal_ne_nil _)
    · rw [line.atoi_code] at isInfo
      exact next isInfo after isSize isRest
  · intro statcode reason found notInfo succeeded header cp after isHeader atHeader
    cases number.symm.trans found
    rw [line.atoi_code] at notInfo succeeded
    cases (behindLine_of_inLine line.reasonInLine).symm.trans isHeader
    exact iff_of_true (succeeds notInfo succeeded cp after atHeader) trivial

theorem Informational.info (response : Informational) : HTTP_INFO response.status.code = true := by
  have digits := response.status.threeDigits
  have isInfo := response.isInfo
  simp only [HTTP_INFO, Bool.and_eq_true, decide_eq_true_eq]
  omega

theorem Final.not_info (response : Final) : HTTP_INFO response.status.code = false := by
  have isFinal := response.isFinal
  simp only [HTTP_INFO, Bool.and_eq_false_iff, decide_eq_false_iff_not]
  omega

/-- Responses that are only information are passed over, one in a piece. -/
theorem informational_passed {responses : List Informational} {pieces : List Bytes} {bound : Nat}
    (sized : buffer.size = IOBUFSZ)
    (isPieces : buffer.pieces = responses.map Informational.text ++ pieces)
    (short : ∀ piece ∈ buffer.pieces, piece.length ≤ IOBUFSZ)
    (enough : IOBUFSZ + 1 < bound) (isRounds : rounds = responses.length + bound)
    (later : ∀ after : Buffer, after.size = IOBUFSZ → after.pieces = pieces →
      SoundRun False post (printerStatus bound jobid) after) :
    SoundRun False post (printerStatus rounds jobid) buffer := by
  induction responses generalizing buffer rounds with
  | nil =>
      rw [List.length_nil, Nat.zero_add] at isRounds
      rw [isRounds]
      exact later buffer sized isPieces
  | cons response responses hypothesis =>
      rw [List.length_cons, Nat.succ_add] at isRounds
      rw [isRounds]
      have isInfo := response.info
      rw [isPieces, List.map_cons, List.cons_append] at short
      apply StatusLine.round sized isPieces (short _ List.mem_cons_self) (by omega)
      · intro notInfo
        exact absurd isInfo (Bool.eq_false_iff.mp notInfo)
      · intro _ after isSize isRest
        apply hypothesis isSize isRest _ rfl
        rw [isRest]
        exact fun piece member => short piece (List.mem_cons_of_mem _ member)
      · intro notInfo
        exact absurd isInfo (Bool.eq_false_iff.mp notInfo)
      · intro _ notInfo
        exact absurd isInfo (Bool.eq_false_iff.mp notInfo)

end Whole

/-! ## Streams -/

/-- A well-formed stream, and the pieces that it is cut into. -/
structure Delivery where
  informational : List Informational
  last : Final
  chunks : List Chunk
  stream : (chunks.map Chunk.bytes).flatten =
    informational.flatMap Informational.text ++ last.text

def Delivery.pieces (delivery : Delivery) : List Bytes := delivery.chunks.map Chunk.bytes

/-- Every access is defined, and the result is the one that is asked for. -/
def Returns (jobid : Int) (memory : Nat → Byte) (pieces : List Bytes) (result : Bool) : Prop :=
  ∃ rounds, (printerStatus rounds jobid).Always Answers
    (fun access buffer => buffer.answer access ≠ none) (fun returned _ => returned = result)
    (.initial memory pieces)

/-- Each response that is looked at comes in a piece of its own, of a refusal at least
the status line. No field in front of the one for the length mentions its name. -/
def Delivery.Undisturbed (delivery : Delivery) : Prop :=
  ∃ piece others,
    delivery.pieces = delivery.informational.map Informational.text ++ piece :: others ∧
      if delivery.last.isSuccess then
        piece = delivery.last.text ∧ ∀ field ∈ delivery.last.before, ¬ Mentions field.line
      else (∃ rest, piece = delivery.last.status.text ++ rest) ∧ piece.length < IOBUFSZ

/-- On an undisturbed stream `printer_status` returns what the last response says. -/
theorem Delivery.returns_accepted {delivery : Delivery} (undisturbed : delivery.Undisturbed) (jobid : Int)
    (memory : Nat → Byte) :
    Returns jobid memory delivery.pieces (delivery.last.accepted jobid) := by
  rcases undisturbed with ⟨piece, others, isPieces, whole⟩
  have short : ∀ piece ∈ delivery.pieces, piece.length ≤ IOBUFSZ := by
    intro piece member
    rcases List.mem_map.mp member with ⟨chunk, _, rfl⟩
    exact chunk.short
  have pieceShort : piece.length ≤ IOBUFSZ := by
    apply short
    rw [isPieces]
    exact List.mem_append_right _ List.mem_cons_self
  have isLast : ∃ rest, piece = delivery.last.status.text ++ rest ∧
      (delivery.last.isSuccess = true → rest = delivery.last.header ∧
        ∀ field ∈ delivery.last.before, ¬ Mentions field.line) ∧
      (delivery.last.isSuccess = false → piece.length < IOBUFSZ) := by
    cases succeeded : delivery.last.isSuccess with
    | true =>
        rw [if_pos succeeded] at whole
        exact ⟨delivery.last.header, whole.1, fun _ => ⟨rfl, whole.2⟩, nofun⟩
    | false =>
        rw [if_neg (Bool.eq_false_iff.mp succeeded)] at whole
        rcases whole with ⟨⟨rest, isPiece⟩, room⟩
        exact ⟨rest, isPiece, nofun, fun _ => room⟩
  rcases isLast with ⟨rest, rfl, success, refusal⟩
  refine ⟨delivery.informational.length + (IOBUFSZ + 3), ?_⟩
  have sound : SoundRun False (fun returned _ => returned = delivery.last.accepted jobid)
      (printerStatus (delivery.informational.length + (IOBUFSZ + 3)) jobid)
      (.initial memory delivery.pieces) := by
    apply informational_passed rfl isPieces short (by omega) rfl
    intro after isSize isRest
    apply StatusLine.round isSize isRest pieceShort (by omega)
    · intro _ refused _
      rw [Final.accepted, Final.isSuccess, refused, Bool.false_and]
    · intro isInfo
      exact absurd isInfo (Bool.eq_false_iff.mp delivery.last.not_info)
    · intro _ succeeded cp buffer atHeader
      rcases success succeeded with ⟨rfl, quiet⟩
      apply atHeader.returns quiet pieceShort (by omega)
      intro _
      rw [Final.accepted, Final.isSuccess, succeeded, Bool.true_and]
    · exact fun refused _ => refusal refused
  exact sound.mono_allowed fun access buffer allowed undefined => allowed.2 undefined

/-! ## A response to a job -/

def okLine : StatusLine where
  major := 1
  minor := 1
  code := 200
  reason := Ascii.text "OK"
  threeDigits := by decide
  reasonInLine := by decide +kernel

def continueLine : StatusLine where
  major := 1
  minor := 1
  code := 100
  reason := Ascii.text "Continue"
  threeDigits := by decide
  reasonInLine := by decide +kernel

/-- The job with the number 1 has been accepted. -/
def jobAccepted : Final where
  status := okLine
  before := []
  length :=
    { name := Ascii.text "Content-Length"
      value := Ascii.text " 8"
      nameInLine := by decide +kernel
      valueInLine := by decide +kernel
      named := by decide }
  after := []
  body := [1, 1, 0, 0, 0, 0, 0, 1]
  isFinal := by decide
  isLength := by decide
  isValue := ⟨[32], [], by decide, by simp [isBlank], by simp⟩
  isBody := by decide

theorem jobAccepted_accepted : jobAccepted.accepted 1 = true := by decide +kernel

def jobPrinted : Delivery where
  informational := [⟨continueLine, [], by decide⟩]
  last := jobAccepted
  chunks := [⟨Informational.text ⟨continueLine, [], by decide⟩, by decide, by decide⟩,
    ⟨jobAccepted.text, by decide, by decide⟩]
  stream := by simp

theorem jobPrinted_returned : Returns 1 (fun _ => 0) jobPrinted.pieces true := by
  have undisturbed : jobPrinted.Undisturbed := by
    refine ⟨jobAccepted.text, [], rfl, ?_⟩
    rw [if_pos (by decide : jobPrinted.last.isSuccess = true)]
    exact ⟨rfl, nofun⟩
  rw [← jobAccepted_accepted]
  exact Delivery.returns_accepted undisturbed 1 fun _ => 0

/-- The body is cut in two. -/
def cutBody : Delivery where
  informational := []
  last := jobAccepted
  chunks := [⟨jobAccepted.text.take 42, by decide, by decide⟩,
    ⟨jobAccepted.text.drop 42, by decide, by decide⟩]
  stream := by simp

theorem cutBody_not_returned :
    ¬ ∀ (delivery : Delivery) jobid memory,
      Returns jobid memory delivery.pieces (delivery.last.accepted jobid) := by
  intro always
  rcases always cutBody 1 fun _ => 0 with ⟨rounds, returned⟩
  have refused : (printerStatus 50 1).Always Answers (fun access buffer => buffer.answer access ≠ none)
      (fun returned _ => returned = false) (.initial (fun _ => 0) cutBody.pieces) := by
    decide +kernel
  have uncut : ∀ access (buffer : Buffer), buffer.answer access ≠ none → ¬ IsCut access := by
    rintro _ buffer answered rfl
    exact answered rfl
  have both := (returned.of_uncut (printerStatus_cutOff (Nat.le_max_left rounds 50) 1) uncut).and
    (refused.of_uncut (printerStatus_cutOff (Nat.le_max_right rounds 50) 1) uncut)
  have answers : ∀ access (buffer : Buffer), buffer.answer access ≠ none ∧ buffer.answer access ≠ none →
      ∃ response after, Answers access buffer response after := by
    intro access buffer answered
    rcases Option.ne_none_iff_exists'.mp answered.1 with ⟨⟨response, after⟩, isAnswer⟩
    exact ⟨response, after, isAnswer⟩
  rcases both.of_answered answers with ⟨result, _, isTrue, isFalse⟩
  have accepted : cutBody.last.accepted 1 = true := jobAccepted_accepted
  rw [isTrue, accepted] at isFalse
  cases isFalse

end Apue.Printer.Status
