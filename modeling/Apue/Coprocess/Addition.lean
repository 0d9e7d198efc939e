import Apue.Foundation.Ascii

/-! # The sums of a coprocess

What `ipc1/add2.c` answers to a line. `sscanf` skips white space in front of a number, and a
number that does not fit into an `int` leaves the answer undefined (`none`).
-/

namespace Apue.Coprocess

open Apue.Foundation Ascii

def MAXLINE : Nat := 4096

def IsInt (value : Int) : Prop := -2147483648 ≤ value ∧ value < 2147483648

instance (value : Int) : Decidable (IsInt value) :=
  inferInstanceAs (Decidable (-2147483648 ≤ value ∧ value < 2147483648))

def scanDigits (text : Bytes) : Option (Nat × Bytes) :=
  if text.takeWhile isDigit = [] then none
  else some (digitsValue (text.takeWhile isDigit), text.dropWhile isDigit)

/-- `%d`, with what is left of the text. -/
def scanInt (text : Bytes) : Option (Int × Bytes) :=
  match text.dropWhile isSpace with
  | 45 :: digits => (scanDigits digits).map fun (value, rest) => (-(value : Int), rest)
  | 43 :: digits => (scanDigits digits).map fun (value, rest) => (value, rest)
  | digits => (scanDigits digits).map fun (value, rest) => (value, rest)

def invalidArgs : Bytes := text "invalid args\n"

/-- What is written for a line. -/
def answer (line : Bytes) : Option Bytes :=
  match scanInt line with
  | none => some invalidArgs
  | some (int1, rest) =>
      if IsInt int1 then
        match scanInt rest with
        | none => some invalidArgs
        | some (int2, _) =>
            if IsInt int2 ∧ IsInt (int1 + int2) then some (signedDecimal (int1 + int2) ++ text "\n")
            else none
      else none

section Answers

variable {line reply padding rest : Bytes} {number int1 int2 : Int}

theorem signedDecimal_length (isInt : IsInt number) : (signedDecimal number).length ≤ 11 := by
  have digits : (decimal number.natAbs).length ≤ 10 := by
    apply (decimal_length_le_iff (by decide)).mpr
    rw [IsInt] at isInt
    omega
  rw [signedDecimal]
  split
  · rw [List.length_cons]
    omega
  · omega

/-- An answer is never empty, and short. -/
theorem answer_length (isAnswer : answer line = some reply) : 0 < reply.length ∧ reply.length ≤ 13 := by
  have invalid : 0 < invalidArgs.length ∧ invalidArgs.length ≤ 13 := by decide
  rw [answer] at isAnswer
  split at isAnswer
  · cases isAnswer
    exact invalid
  · split at isAnswer
    · split at isAnswer
      · cases isAnswer
        exact invalid
      · split at isAnswer
        · rename_i areInts
          cases isAnswer
          have short := signedDecimal_length areInts.2
          have newline : (text "\n").length = 1 := by decide
          rw [List.length_append, newline]
          omega
        · cases isAnswer
    · cases isAnswer

theorem answer_noNul (isAnswer : answer line = some reply) : ∀ byte ∈ reply, byte ≠ 0 := by
  have invalid : ∀ byte ∈ invalidArgs, byte ≠ 0 := ne_of_all (by decide)
  rw [answer] at isAnswer
  split at isAnswer
  · cases isAnswer
    exact invalid
  · split at isAnswer
    · split at isAnswer
      · cases isAnswer
        exact invalid
      · split at isAnswer
        · cases isAnswer
          intro byte member
          rcases List.mem_append.mp member with inSum | isNewline
          · exact (signedDecimal_noBlank _ inSum).2
          · exact ne_of_all (by decide) byte isNewline
        · cases isAnswer
    · cases isAnswer

theorem scanDigits_decimal (number : Nat) (noDigit : ∀ byte ∈ rest.head?, isDigit byte = false) :
    scanDigits (decimal number ++ rest) = some (number, rest) := by
  have digits : (decimal number ++ rest).takeWhile isDigit = decimal number :=
    takeWhile_append_of_all (decimal_isDigit number) noDigit
  have others : (decimal number ++ rest).dropWhile isDigit = rest := by
    have split := List.takeWhile_append_dropWhile (p := isDigit) (l := decimal number ++ rest)
    rw [digits] at split
    exact List.append_cancel_left split
  rw [scanDigits, digits, if_neg (decimal_ne_nil number), others, digitsValue_decimal]

theorem scanInt_signedDecimal (number : Int) (blank : ∀ byte ∈ padding, isSpace byte = true)
    (noDigit : ∀ byte ∈ rest.head?, isDigit byte = false) :
    scanInt (padding ++ signedDecimal number ++ rest) = some (number, rest) := by
  have skipped : ∀ byte digits, signedDecimal number = byte :: digits → isSpace byte = false →
      (padding ++ signedDecimal number ++ rest).dropWhile isSpace = byte :: (digits ++ rest) := by
    intro byte digits split notSpace
    rw [List.append_assoc, List.dropWhile_append_of_pos blank, split, List.cons_append,
      List.dropWhile_cons_of_neg (by rw [notSpace]; exact Bool.false_ne_true)]
  have digits := scanDigits_decimal number.natAbs noDigit
  by_cases negative : number < 0
  · have split : signedDecimal number = 45 :: decimal number.natAbs := if_pos negative
    rw [scanInt, skipped 45 _ split (by decide)]
    change (scanDigits (decimal number.natAbs ++ rest)).map _ = _
    rw [digits, Option.map_some, Option.some.injEq, Prod.mk.injEq]
    exact ⟨by omega, rfl⟩
  · have split : signedDecimal number = decimal number.natAbs := if_neg negative
    rcases List.exists_cons_of_ne_nil (decimal_ne_nil number.natAbs) with ⟨byte, others, isCons⟩
    have isDigitByte : isDigit byte = true :=
      decimal_isDigit number.natAbs byte (by rw [isCons]; exact List.mem_cons_self)
    rw [scanInt, skipped byte others (split.trans isCons) (isSpace_of_isDigit isDigitByte)]
    rw [isCons, List.cons_append] at digits
    have value : (number.natAbs : Int) = number := by omega
    split
    · rename_i isMinus
      rw [(List.cons.inj isMinus).1] at isDigitByte
      exact absurd isDigitByte (by decide)
    · rename_i isPlus
      rw [(List.cons.inj isPlus).1] at isDigitByte
      exact absurd isDigitByte (by decide)
    · rw [digits, Option.map_some]
      dsimp only
      rw [value]

/-- Two numbers are answered with their sum. -/
theorem answer_sum {first second : Bytes} (firstBlank : ∀ byte ∈ first, isSpace byte = true)
    (secondBlank : ∀ byte ∈ second, isSpace byte = true) (apart : second ≠ [])
    (noDigit : ∀ byte ∈ rest.head?, isDigit byte = false) (isInt1 : IsInt int1) (isInt2 : IsInt int2)
    (isSum : IsInt (int1 + int2)) :
    answer (first ++ signedDecimal int1 ++ (second ++ signedDecimal int2 ++ rest)) =
      some (signedDecimal (int1 + int2) ++ text "
") := by
  have noDigitBetween : ∀ byte ∈ (second ++ signedDecimal int2 ++ rest).head?, isDigit byte = false := by
    intro byte isHead
    rcases List.exists_cons_of_ne_nil apart with ⟨blank, others, rfl⟩
    rw [List.cons_append, List.cons_append, List.head?_cons, Option.mem_some_iff] at isHead
    subst isHead
    have isBlank := secondBlank blank List.mem_cons_self
    cases isDigitByte : isDigit blank with
    | false => rfl
    | true =>
        rw [isSpace_of_isDigit isDigitByte] at isBlank
        cases isBlank
  rw [answer, scanInt_signedDecimal int1 firstBlank noDigitBetween]
  dsimp only
  rw [if_pos isInt1, scanInt_signedDecimal int2 secondBlank noDigit]
  exact if_pos ⟨isInt2, isSum⟩

end Answers

end Apue.Coprocess
