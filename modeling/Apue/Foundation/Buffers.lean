import Apue.Foundation.ByteFile

/-! # Texts that are put together in a buffer

A writer stores its text at a position of a buffer and moves the position behind it. It is
undefined where it would store something outside. A copied string has a NUL byte at its
end, which the next writer overwrites.
-/

namespace Apue.Foundation

open Ascii

/-- A buffer and a position in it. -/
abbrev Area := Bytes × Nat

abbrev Writer := Area → Option Area

/-- `*position++ = byte` for one byte after the other. -/
def putBytes (bytes : Bytes) : Writer := fun (buffer, position) =>
  if position + bytes.length ≤ buffer.length then
    some (pwrite buffer position bytes, position + bytes.length)
  else none

/-- `strcpy(position, string)` and `position += strlen(string)`. -/
def putString (string : Bytes) : Writer := fun (buffer, position) => do
  let (buffer, _) ← putBytes (string ++ [0]) (buffer, position)
  return (buffer, position + string.length)

/-- A buffer of `size` bytes with `written` in front of the position. -/
structure Filled (size : Nat) (written : Bytes) (area : Area) : Prop where
  size : area.1.length = size
  position : area.2 = written.length
  holds : written <+: area.1

/-- The writer adds `text` where there is room for it and `slack` more bytes, and is undefined
where there is less. -/
structure Writes (writer : Writer) (text : Bytes) (slack : Nat) : Prop where
  stores : ∀ {size written area}, Filled size written area →
    written.length + text.length + slack ≤ size →
    ∃ after, writer area = some after ∧ Filled size (written ++ text) after
  within : ∀ {size written area}, Filled size written area → (writer area).isSome = true →
    written.length + text.length + slack ≤ size

variable {size slack : Nat} {text written : Bytes} {area after : Area} {writer : Writer}

theorem Filled.start (buffer : Bytes) : Filled buffer.length [] (buffer, 0) where
  size := rfl
  position := rfl
  holds := List.nil_prefix

theorem Filled.middle {buffer : Bytes} {position : Nat} (inside : position ≤ buffer.length) :
    Filled buffer.length (buffer.take position) (buffer, position) where
  size := rfl
  position := (List.length_take_of_le inside).symm
  holds := List.take_prefix _ _

theorem Filled.weaken (filled : Filled size (written ++ text) area) :
    Filled size written (area.1, written.length) where
  size := filled.size
  position := rfl
  holds := (List.prefix_append written text).trans filled.holds

/-- What is in the buffer behind the front of what was written. -/
theorem Filled.drop {front back : Bytes} (filled : Filled size (front ++ back) area) :
    area.1.drop front.length = back ++ area.1.drop (front ++ back).length := by
  rcases filled.holds with ⟨rest, whole⟩
  have behind : area.1.drop (front ++ back).length = rest := by
    rw [← whole, List.drop_left]
  rw [behind, ← whole, List.append_assoc, List.drop_left]

theorem writes_putBytes (text : Bytes) : Writes (putBytes text) text 0 where
  stores := by
    rintro size written ⟨buffer, position⟩ ⟨rfl, rfl, rest, rfl⟩ room
    have fits : text.length ≤ rest.length := by
      dsimp only at room
      rw [List.length_append] at room
      omega
    refine ⟨_, if_pos room, ?_⟩
    have stored : pwrite (written ++ rest) written.length text =
        written ++ text ++ rest.drop text.length := by
      have within := @pwrite_within written rest [] text fits
      rw [List.append_nil, List.append_nil, ← List.append_assoc] at within
      exact within
    dsimp only
    rw [stored]
    refine ⟨?_, List.length_append.symm, List.prefix_append _ _⟩
    simp only [List.length_append, List.length_drop]
    omega
  within := by
    rintro size written ⟨buffer, position⟩ ⟨rfl, rfl, _⟩ defined
    rw [putBytes] at defined
    split at defined
    · assumption
    · cases defined

theorem writes_putString (string : Bytes) : Writes (putString string) string 1 where
  stores := by
    intro size written area filled room
    have roomForNul : written.length + (string ++ [0]).length + 0 ≤ size := by
      rw [List.length_append]
      exact room
    rcases (writes_putBytes (string ++ [0])).stores filled roomForNul with ⟨after, stored, holds⟩
    rw [← List.append_assoc] at holds
    refine ⟨(after.1, area.2 + string.length), ?_, ?_⟩
    · rw [putString, stored]
      rfl
    · rw [filled.position, ← List.length_append]
      exact holds.weaken
  within := by
    intro size written area filled defined
    rcases Option.isSome_iff_exists.mp defined with ⟨after, isAfter⟩
    rcases Option.bind_eq_some_iff.mp isAfter with ⟨between, stored, _⟩
    have within := (writes_putBytes (string ++ [0])).within filled
      (Option.isSome_iff_exists.mpr ⟨between, stored⟩)
    rw [List.length_append] at within
    exact within

/-- The second writer overwrites what the first has put behind its text. -/
theorem Writes.andThen {first second : Writer} {front back : Bytes} {overwritten : Nat}
    (writesFirst : Writes first front overwritten) (writesSecond : Writes second back slack)
    (covers : overwritten ≤ back.length + slack) :
    Writes (fun area => first area >>= second) (front ++ back) slack where
  stores := by
    intro size written area filled room
    rw [List.length_append] at room
    rcases writesFirst.stores filled (by omega) with ⟨between, stored, holds⟩
    have roomBehind : (written ++ front).length + back.length + slack ≤ size := by
      rw [List.length_append]
      omega
    rcases writesSecond.stores holds roomBehind with ⟨after, storedBehind, holdsBoth⟩
    rw [List.append_assoc] at holdsBoth
    refine ⟨after, ?_, holdsBoth⟩
    rw [stored]
    exact storedBehind
  within := by
    intro size written area filled defined
    rcases Option.isSome_iff_exists.mp defined with ⟨after, isAfter⟩
    rcases Option.bind_eq_some_iff.mp isAfter with ⟨between, stored, storedBehind⟩
    rcases writesFirst.stores filled (writesFirst.within filled
      (Option.isSome_iff_exists.mpr ⟨between, stored⟩)) with ⟨other, same, holds⟩
    rw [stored, Option.some.injEq] at same
    subst same
    have within := writesSecond.within holds (Option.isSome_iff_exists.mpr ⟨after, storedBehind⟩)
    rw [List.length_append] at within ⊢
    omega

/-- What a writer that was defined has stored. -/
theorem Writes.filled (writes : Writes writer text slack) (filled : Filled size written area)
    (stored : writer area = some after) : Filled size (written ++ text) after := by
  have room := writes.within filled (Option.isSome_iff_exists.mpr ⟨after, stored⟩)
  rcases writes.stores filled room with ⟨other, same, holds⟩
  rw [stored, Option.some.injEq] at same
  rw [same]
  exact holds

theorem cString_noNul (buffer : Bytes) : ∀ byte ∈ cString buffer, byte ≠ 0 := by
  intro byte member
  simpa using (List.all_eq_true.mp List.all_takeWhile) byte member

/-- A string that was copied to the start of a buffer is read back. -/
theorem cString_putString {string buffer : Bytes} (noNul : ∀ byte ∈ string, byte ≠ 0)
    (copied : putString string (buffer, 0) = some after) : cString after.1 = string := by
  rcases Option.bind_eq_some_iff.mp copied with ⟨between, stored, same⟩
  cases same
  rcases ((writes_putBytes (string ++ [0])).filled (Filled.start buffer) stored).holds with
    ⟨rest, whole⟩
  rw [← whole, List.nil_append, List.append_assoc, List.singleton_append]
  exact cString_append noNul

end Apue.Foundation
