import Mathlib.Data.Nat.Digits.Lemmas

/-! # Bytes, C strings and decimal numerals

`decimal` is what `sprintf` prints for `%d` of a number that is not negative,
`padLeft` the field width in front of it, and `atol` the C function.
-/

namespace Apue.Foundation

abbrev Byte := UInt8

abbrev Bytes := List Byte

/-- The bytes of a C string in front of its NUL byte. -/
abbrev CString := { bytes : Bytes // ∀ byte ∈ bytes, byte ≠ 0 }

namespace Ascii

/-- The bytes of a text with ASCII characters only. -/
def text (string : String) : Bytes := string.toList.map fun symbol => UInt8.ofNat symbol.toNat

def space : Byte := 32

def newline : Byte := 10

def isSpace (byte : Byte) : Bool := byte == 32 || (9 ≤ byte && byte ≤ 13)

def isDigit (byte : Byte) : Bool := 48 ≤ byte && byte ≤ 57

def digitByte (digit : Nat) : Byte := UInt8.ofNat (48 + digit)

def decimal (number : Nat) : Bytes :=
  if number = 0 then [48] else ((Nat.digits 10 number).map digitByte).reverse

def padLeft (width : Nat) (text : Bytes) : Bytes :=
  List.replicate (width - text.length) space ++ text

def digitsValue (digits : Bytes) : Nat :=
  digits.foldl (fun value byte => value * 10 + (byte.toNat - 48)) 0

/-- The number at the front of a text, behind white space and a sign. -/
def atol (text : Bytes) : Int :=
  match text.dropWhile isSpace with
  | 45 :: digits => -(digitsValue (digits.takeWhile isDigit) : Int)
  | 43 :: digits => digitsValue (digits.takeWhile isDigit)
  | digits => digitsValue (digits.takeWhile isDigit)

/-- What `sprintf` prints for `%d`. -/
def signedDecimal (number : Int) : Bytes :=
  if number < 0 then 45 :: decimal number.natAbs else decimal number.natAbs

/-- The C function: `strtol` stops at the ends of `long`, and what it returns is cut
to an `int`. -/
def atoi (text : Bytes) : Int :=
  Int.bmod (max (-2 ^ 63) (min (atol text) (2 ^ 63 - 1))) (2 ^ 32)

/-- The C string at the front of a buffer. -/
def cString (buffer : Bytes) : Bytes := buffer.takeWhile (· ≠ 0)

theorem digitByte_toNat {digit : Nat} (isDecimal : digit < 10) :
    (digitByte digit).toNat = 48 + digit := by
  rw [digitByte, UInt8.toNat_ofNat']
  omega

theorem isDigit_digitByte {digit : Nat} (isDecimal : digit < 10) :
    isDigit (digitByte digit) = true := by
  have value := digitByte_toNat isDecimal
  simp only [isDigit, Bool.and_eq_true, decide_eq_true_eq, UInt8.le_iff_toNat_le, value]
  constructor
  · show 48 ≤ 48 + digit
    omega
  · show 48 + digit ≤ 57
    omega

theorem decimal_isDigit (number : Nat) :
    ∀ byte ∈ decimal number, isDigit byte = true := by
  intro byte member
  rw [decimal] at member
  split at member
  · rw [List.mem_singleton.mp member]
    rfl
  · rcases List.mem_map.mp (List.mem_reverse.mp member) with ⟨digit, inside, rfl⟩
    exact isDigit_digitByte (Nat.digits_lt_base (by omega) inside)

theorem decimal_ne_nil (number : Nat) : decimal number ≠ [] := by
  rw [decimal]
  split
  · simp
  · simp [Nat.digits_ne_nil_iff_ne_zero, *]

theorem digitsValue_decimal (number : Nat) : digitsValue (decimal number) = number := by
  rw [decimal]
  split
  · subst number
    rfl
  · rw [digitsValue, List.foldl_reverse, List.foldr_map]
    have below : ∀ digit ∈ Nat.digits 10 number, digit < 10 := fun digit inside =>
      Nat.digits_lt_base (by omega) inside
    calc (Nat.digits 10 number).foldr
          (fun digit value => value * 10 + ((digitByte digit).toNat - 48)) 0
        = (Nat.digits 10 number).foldr (fun digit value => digit + 10 * value) 0 := by
          generalize Nat.digits 10 number = digits at below
          induction digits with
          | nil => rfl
          | cons digit digits induction =>
              rw [List.foldr_cons, List.foldr_cons,
                induction fun other inside => below other (by simp [inside]),
                digitByte_toNat (below digit (by simp))]
              omega
      _ = Nat.ofDigits 10 (Nat.digits 10 number) := by
          rw [Nat.ofDigits_eq_foldr]
          rfl
      _ = number := Nat.ofDigits_digits 10 number

theorem decimal_length_le_iff {number width : Nat} (positive : 0 < width) :
    (decimal number).length ≤ width ↔ number < 10 ^ width := by
  rw [decimal]
  split
  · subst number
    simp
    omega
  · simp [Nat.digits_length_le_iff]

theorem padLeft_length {width : Nat} {text : Bytes} (fits : text.length ≤ width) :
    (padLeft width text).length = width := by
  simp only [padLeft, List.length_append, List.length_replicate]
  omega

theorem isSpace_of_isDigit {byte : Byte} (digit : isDigit byte = true) :
    isSpace byte = false := by
  simp only [isDigit, Bool.and_eq_true, decide_eq_true_eq, UInt8.le_iff_toNat_le] at digit
  have low : 48 ≤ byte.toNat := digit.1
  have notSpace : ¬ byte.toNat = 32 := by omega
  have notControl : ¬ byte.toNat ≤ 13 := by omega
  simp only [isSpace, Bool.or_eq_false_iff, beq_eq_false_iff_ne, ne_eq,
    Bool.and_eq_false_iff, decide_eq_false_iff_not, UInt8.le_iff_toNat_le]
  refine ⟨fun equal => notSpace ?_, .inr notControl⟩
  rw [equal]
  rfl

theorem takeWhile_append_of_all {α : Type} {keep : α → Bool} {front rest : List α}
    (all : ∀ value ∈ front, keep value = true)
    (stop : ∀ value ∈ rest.head?, keep value = false) :
    (front ++ rest).takeWhile keep = front := by
  rw [List.takeWhile_append_of_pos all]
  cases rest with
  | nil => simp
  | cons head tail => simp [stop head rfl]

/-- `atol` reads a padded numeral up to the first byte that is not a digit. -/
theorem atol_decimal {padding rest : Bytes} (number : Nat)
    (blank : ∀ byte ∈ padding, isSpace byte = true)
    (stop : ∀ byte ∈ rest.head?, isDigit byte = false) :
    atol (padding ++ decimal number ++ rest) = number := by
  rcases List.exists_cons_of_ne_nil (decimal_ne_nil number) with ⟨head, tail, split⟩
  have headDigit : isDigit head = true := decimal_isDigit number head (by simp [split])
  have dropped : (padding ++ decimal number ++ rest).dropWhile isSpace =
      head :: tail ++ rest := by
    rw [List.append_assoc, List.dropWhile_append_of_pos blank, split, List.cons_append,
      List.dropWhile_cons_of_neg (by simp [isSpace_of_isDigit headDigit])]
  have value : digitsValue ((head :: tail ++ rest).takeWhile isDigit) = number := by
    rw [← split, takeWhile_append_of_all (decimal_isDigit number) stop,
      digitsValue_decimal]
  rw [atol, dropped]
  split
  case h_1 digits equal =>
    obtain rfl : head = 45 := (List.cons.inj equal).1
    exact absurd headDigit (by decide)
  case h_2 digits equal =>
    obtain rfl : head = 43 := (List.cons.inj equal).1
    exact absurd headDigit (by decide)
  case h_3 => rw [value]

theorem atol_padLeft {width number : Nat} {rest : Bytes}
    (stop : ∀ byte ∈ rest.head?, isDigit byte = false) :
    atol (padLeft width (decimal number) ++ rest) = number :=
  atol_decimal number (fun byte member => by
    rw [List.eq_of_mem_replicate member]
    rfl) stop

theorem ne_of_all {bytes : Bytes} {byte : Byte} (differ : bytes.all (· != byte) = true) :
    ∀ other ∈ bytes, other ≠ byte := by
  intro other member
  exact bne_iff_ne.mp (List.all_eq_true.mp differ other member)

theorem cString_append {text rest : Bytes} (noNul : ∀ byte ∈ text, byte ≠ 0) :
    cString (text ++ 0 :: rest) = text :=
  takeWhile_append_of_all (by simpa using noNul) (by simp)

theorem cString_eq_self {text : Bytes} (noNul : ∀ byte ∈ text, byte ≠ 0) :
    cString text = text := by
  have whole : cString (text ++ []) = text :=
    takeWhile_append_of_all (by simpa using noNul) (by simp)
  rwa [List.append_nil] at whole

theorem decimal_noNul (number : Nat) : ∀ byte ∈ decimal number, byte ≠ 0 := by
  rintro byte member rfl
  exact absurd (decimal_isDigit number 0 member) (by decide)

theorem signedDecimal_noBlank (number : Int) {byte : Byte} (member : byte ∈ signedDecimal number) :
    isSpace byte = false ∧ byte ≠ 0 := by
  have digits : byte ∈ decimal number.natAbs → isSpace byte = false ∧ byte ≠ 0 := fun inside =>
    ⟨isSpace_of_isDigit (decimal_isDigit _ byte inside), decimal_noNul _ byte inside⟩
  rw [signedDecimal] at member
  split at member
  · rcases List.mem_cons.mp member with rfl | inside
    · decide
    · exact digits inside
  · exact digits member

theorem signedDecimal_ne_nil (number : Int) : signedDecimal number ≠ [] := by
  rw [signedDecimal]
  split
  · exact List.cons_ne_nil _ _
  · exact decimal_ne_nil _

theorem atol_signedDecimal (number : Int) : atol (signedDecimal number) = number := by
  rw [signedDecimal]
  split
  · have digits : (decimal number.natAbs).takeWhile isDigit = decimal number.natAbs := by
      have whole : (decimal number.natAbs ++ []).takeWhile isDigit = decimal number.natAbs :=
        takeWhile_append_of_all (decimal_isDigit number.natAbs) (by simp)
      rwa [List.append_nil] at whole
    have notBlank : ¬ isSpace 45 = true := by decide
    rw [atol, List.dropWhile_cons_of_neg notBlank]
    change -(digitsValue ((decimal number.natAbs).takeWhile isDigit) : Int) = number
    rw [digits, digitsValue_decimal]
    omega
  · have noPadding : ∀ byte ∈ ([] : Bytes), isSpace byte = true := nofun
    have noRest : ∀ byte ∈ ([] : Bytes).head?, isDigit byte = false := nofun
    have value := atol_decimal number.natAbs noPadding noRest
    rw [List.nil_append, List.append_nil] at value
    rw [value]
    omega

/-- Every `int` is read back from what is printed for it. -/
theorem atoi_signedDecimal {number : Int} (low : -2 ^ 31 ≤ number) (high : number < 2 ^ 31) :
    atoi (signedDecimal number) = number := by
  have inside : max (-2 ^ 63) (min number (2 ^ 63 - 1)) = number := by omega
  rw [atoi, atol_signedDecimal, inside]
  exact Int.bmod_eq_of_le (by omega) (by omega)

end Ascii

end Apue.Foundation
