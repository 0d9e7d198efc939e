import Apue.Foundation.Ascii
import Mathlib.Data.List.TakeDrop

/-! # Files of bytes that are made of items

`pread` and `pwrite` are the reads and writes of a regular file at an offset. A
file that is a row of encoded items, each found by its offset, can have an item
rewritten in place by one of the same size, and an item put at its end.
-/

namespace Apue.Foundation

/-- At most `count` bytes from `offset` on; fewer at the end of the file. -/
def pread (file : Bytes) (offset count : Nat) : Bytes := (file.drop offset).take count

/-- A write behind the end of the file leaves a hole, which reads as zeros. -/
def pwrite (file : Bytes) (offset : Nat) (text : Bytes) : Bytes :=
  file.take offset ++ List.replicate (offset - file.length) 0 ++ text ++
    file.drop (offset + text.length)

theorem getElem?_pread (file : Bytes) (offset count index : Nat) :
    (pread file offset count)[index]? = if index < count then file[offset + index]? else none := by
  rw [pread, List.getElem?_take, List.getElem?_drop]

theorem length_pread (file : Bytes) (offset count : Nat) :
    (pread file offset count).length = min count (file.length - offset) := by
  rw [pread, List.length_take, List.length_drop]

theorem pread_within {before middle after : Bytes} {offset count : Nat}
    (within : offset + count ≤ middle.length) :
    pread (before ++ middle ++ after) (before.length + offset) count =
      pread middle offset count := by
  rw [pread, List.append_assoc, ← List.drop_drop, List.drop_left, List.drop_append_of_le_length
    (by omega), List.take_append_of_le_length (by rw [List.length_drop]; omega), pread]

theorem pwrite_within {before middle after text : Bytes}
    (within : text.length ≤ middle.length) :
    pwrite (before ++ middle ++ after) before.length text =
      before ++ (text ++ middle.drop text.length) ++ after := by
  have inside : before.length ≤ (before ++ middle ++ after).length := by
    simp only [List.length_append]
    omega
  rw [pwrite, Nat.sub_eq_zero_of_le inside, List.append_assoc before, List.take_left,
    ← List.drop_drop, List.drop_left, List.drop_append_of_le_length within]
  simp only [List.replicate_zero, List.append_nil, List.append_assoc]

theorem pwrite_end (file text : Bytes) : pwrite file file.length text = file ++ text := by
  rw [pwrite, List.take_length, Nat.sub_self, List.drop_eq_nil_of_le (by omega)]
  simp only [List.replicate_zero, List.append_nil]

section Pwrite

variable {file text : Bytes} {offset : Nat}

/-- In front of what is written there are `offset` bytes, some of which may be a hole. -/
theorem pwrite_split (file text : Bytes) (offset : Nat) :
    ∃ before, before.length = offset ∧
      pwrite file offset text = before ++ text ++ file.drop (offset + text.length) := by
  refine ⟨file.take offset ++ List.replicate (offset - file.length) 0, ?_, rfl⟩
  rw [List.length_append, List.length_take, List.length_replicate]
  omega

theorem pread_pwrite {within count : Nat} (inside : within + count ≤ text.length) :
    pread (pwrite file offset text) (offset + within) count = pread text within count := by
  rcases pwrite_split file text offset with ⟨before, rfl, split⟩
  rw [split]
  exact pread_within inside

theorem length_pwrite (file text : Bytes) (offset : Nat) :
    (pwrite file offset text).length = max file.length (offset + text.length) := by
  rcases pwrite_split file text offset with ⟨before, rfl, split⟩
  rw [split, List.length_append, List.length_append, List.length_drop]
  omega

/-- A write changes the bytes that it covers. -/
theorem getElem?_pwrite (inside : offset ≤ file.length) (position : Nat) :
    (pwrite file offset text)[position]? =
      if position < offset then file[position]?
      else if position < offset + text.length then text[position - offset]?
      else file[position]? := by
  have front : (file.take offset).length = offset := List.length_take_of_le inside
  rw [pwrite, Nat.sub_eq_zero_of_le inside, List.replicate_zero, List.append_nil, List.append_assoc]
  split
  · rename_i before
    rw [List.getElem?_append_left (by rwa [front]), List.getElem?_take_of_lt before]
  · rw [List.getElem?_append_right (by omega), front]
    split
    · rw [List.getElem?_append_left (by omega)]
    · rw [List.getElem?_append_right (by omega), List.getElem?_drop]
      congr 1
      omega

end Pwrite

section Items

variable {Item : Type} (encode : Item → Bytes)

def encodeAll (items : List Item) : Bytes := items.flatMap encode

/-- The item that starts at an offset. -/
def itemAt : List Item → Nat → Option Item
  | [], _ => none
  | item :: items, offset =>
      if offset = 0 then some item
      else if (encode item).length ≤ offset then
        itemAt items (offset - (encode item).length)
      else none

/-- The items with the one at an offset replaced. -/
def replaceAt : List Item → Nat → Item → List Item
  | [], _, _ => []
  | item :: items, offset, new =>
      if offset = 0 then new :: items
      else item :: replaceAt items (offset - (encode item).length) new

/-- The items with their offsets, when the first is at `start`. -/
def placed : Nat → List Item → List (Nat × Item)
  | _, [] => []
  | start, item :: items => (start, item) :: placed (start + (encode item).length) items

variable {encode} {items : List Item} {item new : Item} {offset : Nat}

theorem encodeAll_cons (item : Item) (items : List Item) :
    encodeAll encode (item :: items) = encode item ++ encodeAll encode items := by
  rw [encodeAll, List.flatMap_cons]
  rfl

theorem encodeAll_append (left right : List Item) :
    encodeAll encode (left ++ right) = encodeAll encode left ++ encodeAll encode right :=
  List.flatMap_append

/-- An item that is found splits the file around it. -/
theorem split_of_itemAt (found : itemAt encode items offset = some item) :
    ∃ before after, items = before ++ item :: after ∧
      (encodeAll encode before).length = offset ∧
      ∀ new, replaceAt encode items offset new = before ++ new :: after := by
  induction items generalizing offset with
  | nil => cases found
  | cons first items hypothesis =>
      rw [itemAt] at found
      by_cases here : offset = 0
      · rw [if_pos here] at found
        cases found
        refine ⟨[], items, rfl, here.symm, fun new => ?_⟩
        rw [replaceAt, if_pos here]
        rfl
      · rw [if_neg here, Option.ite_none_right_eq_some] at found
        rcases hypothesis found.2 with ⟨before, after, split, length, replaced⟩
        refine ⟨first :: before, after, by rw [split]; rfl, ?_, fun new => ?_⟩
        · rw [encodeAll_cons, List.length_append, length]
          omega
        · rw [replaceAt, if_neg here, replaced]
          rfl

theorem placed_map_snd (start : Nat) (items : List Item) :
    (placed encode start items).map Prod.snd = items := by
  induction items generalizing start with
  | nil => rfl
  | cons first items hypothesis => rw [placed, List.map_cons, hypothesis]

theorem mem_of_itemAt (found : itemAt encode items offset = some item) : item ∈ items := by
  rcases split_of_itemAt found with ⟨before, after, rfl, _⟩
  exact List.mem_append_right _ List.mem_cons_self

theorem itemAt_map {Other : Type} {encodeOther : Other → Bytes} {toItem : Other → Item}
    (same : ∀ other, encode (toItem other) = encodeOther other) (others : List Other) :
    itemAt encode (others.map toItem) offset =
      (itemAt encodeOther others offset).map toItem := by
  induction others generalizing offset with
  | nil => rfl
  | cons first others hypothesis =>
      rw [List.map_cons, itemAt, itemAt, same]
      split
      · rfl
      · split
        · exact hypothesis
        · rfl

variable (nonempty : ∀ item, 0 < (encode item).length)
include nonempty

theorem itemAt_append (before after : List Item) :
    itemAt encode (before ++ after) offset =
      if offset < (encodeAll encode before).length then itemAt encode before offset
      else itemAt encode after (offset - (encodeAll encode before).length) := by
  induction before generalizing offset with
  | nil => simp [encodeAll]
  | cons first before hypothesis =>
      have := nonempty first
      rw [List.cons_append, itemAt, itemAt, encodeAll_cons, List.length_append]
      by_cases here : offset = 0
      · rw [if_pos here, if_pos here, if_pos (by omega)]
      · rw [if_neg here, if_neg here, hypothesis]
        by_cases behind : (encode first).length ≤ offset
        · rw [if_pos behind, if_pos behind, Nat.sub_sub]
          by_cases inside : offset < (encode first).length + (encodeAll encode before).length
          · rw [if_pos (by omega), if_pos inside]
          · rw [if_neg (by omega), if_neg inside]
        · rw [if_neg behind, if_neg behind, if_pos (by omega)]

theorem itemAt_split (before after : List Item) (item : Item) :
    itemAt encode (before ++ item :: after) (encodeAll encode before).length = some item := by
  rw [itemAt_append nonempty, if_neg (Nat.lt_irrefl _), Nat.sub_self, itemAt, if_pos rfl]

theorem itemAt_beyond (items : List Item)
    (beyond : (encodeAll encode items).length ≤ offset) :
    itemAt encode items offset = none := by
  have appended : itemAt encode (items ++ []) offset = _ := itemAt_append nonempty items []
  rw [List.append_nil, if_neg (Nat.not_lt.mpr beyond)] at appended
  exact appended

theorem itemAt_concat (items : List Item) (new : Item) :
    itemAt encode (items ++ [new]) offset =
      if offset = (encodeAll encode items).length then some new
      else itemAt encode items offset := by
  rw [itemAt_append nonempty]
  by_cases inside : offset < (encodeAll encode items).length
  · rw [if_pos inside, if_neg (by omega)]
  · rw [if_neg inside]
    by_cases here : offset = (encodeAll encode items).length
    · rw [if_pos here, itemAt, if_pos (by omega)]
    · rw [if_neg here, itemAt_beyond nonempty items (by omega), itemAt, if_neg (by omega)]
      simp only [itemAt, ite_self]

/-- Replacing an item by one of its size changes nothing at other offsets. -/
theorem itemAt_replaceAt (found : itemAt encode items offset = some item)
    (size : (encode new).length = (encode item).length) (other : Nat) :
    itemAt encode (replaceAt encode items offset new) other =
      if other = offset then some new else itemAt encode items other := by
  rcases split_of_itemAt found with ⟨before, after, split, length, replaced⟩
  rw [replaced, split, itemAt_append nonempty, itemAt_append nonempty, length]
  by_cases early : other < offset
  · rw [if_pos early, if_pos early, if_neg (by omega)]
  · rw [if_neg early, if_neg early, itemAt, itemAt, size]
    by_cases here : other = offset
    · rw [if_pos here, if_pos (by omega)]
    · have away : ¬ other - offset = 0 := by omega
      rw [if_neg here, if_neg away, if_neg away]

/-- Every byte is inside an item. -/
theorem itemAt_covers {byte : Nat} (inside : byte < (encodeAll encode items).length) :
    ∃ offset item, itemAt encode items offset = some item ∧ offset ≤ byte ∧
      byte < offset + (encode item).length := by
  induction items generalizing byte with
  | nil => exact absurd inside (Nat.not_lt_zero _)
  | cons first items hypothesis =>
      by_cases early : byte < (encode first).length
      · exact ⟨0, first, if_pos rfl, Nat.zero_le _, by rwa [Nat.zero_add]⟩
      · have positive := nonempty first
        rw [encodeAll_cons, List.length_append] at inside
        have later : byte - (encode first).length < (encodeAll encode items).length := by
          omega
        rcases hypothesis later with ⟨offset, item, found, lower, upper⟩
        refine ⟨(encode first).length + offset, item, ?_, by omega, by omega⟩
        rw [itemAt, if_neg (by omega), if_pos (Nat.le_add_right _ _), Nat.add_sub_cancel_left,
          found]

/-- Items at different offsets do not overlap. -/
theorem itemAt_disjoint {later : Nat} {next : Item}
    (found : itemAt encode items offset = some item)
    (foundNext : itemAt encode items later = some next) (behind : offset < later) :
    offset + (encode item).length ≤ later := by
  rcases split_of_itemAt found with ⟨before, after, rfl, length, _⟩
  rw [itemAt_append nonempty, length, if_neg (by omega), itemAt, if_neg (by omega),
    Option.ite_none_right_eq_some] at foundNext
  omega

theorem mem_placed {start : Nat} :
    (offset, item) ∈ placed encode start items ↔
      start ≤ offset ∧ itemAt encode items (offset - start) = some item := by
  induction items generalizing start with
  | nil => simp [placed, itemAt]
  | cons first items hypothesis =>
      have positive := nonempty first
      rw [placed, List.mem_cons, hypothesis, itemAt]
      by_cases here : offset = start
      · subst here
        rw [Nat.sub_self, if_pos rfl]
        constructor
        · rintro (equal | ⟨behind, _⟩)
          · rw [Prod.mk.injEq] at equal
            exact ⟨Nat.le_refl _, congrArg some equal.2.symm⟩
          · omega
        · rintro ⟨_, equal⟩
          exact Or.inl (by rw [Option.some.inj equal])
      · constructor
        · rintro (equal | ⟨behind, found⟩)
          · exact absurd (congrArg Prod.fst equal) here
          · refine ⟨by omega, ?_⟩
            rwa [if_neg (by omega), if_pos (by omega), Nat.sub_sub]
        · rintro ⟨behind, found⟩
          rw [if_neg (by omega), Option.ite_none_right_eq_some, Nat.sub_sub] at found
          exact Or.inr ⟨by omega, found.2⟩

theorem placed_nodup (start : Nat) (items : List Item) :
    ((placed encode start items).map Prod.fst).Nodup := by
  induction items generalizing start with
  | nil => exact List.nodup_nil
  | cons first items hypothesis =>
      rw [placed, List.map_cons]
      refine List.nodup_cons.mpr ⟨fun member => ?_, hypothesis _⟩
      rcases List.mem_map.mp member with ⟨⟨offset, item⟩, among, equal⟩
      have behind := (mem_placed nonempty).mp among
      have positive := nonempty first
      simp only at equal
      omega

omit nonempty

theorem encodeAll_replaceAt_length (found : itemAt encode items offset = some item)
    (size : (encode new).length = (encode item).length) :
    (encodeAll encode (replaceAt encode items offset new)).length =
      (encodeAll encode items).length := by
  rcases split_of_itemAt found with ⟨before, after, split, _, replaced⟩
  rw [replaced, split]
  simp only [encodeAll_append, encodeAll_cons, List.length_append, size]

theorem pread_item (found : itemAt encode items offset = some item) (within count : Nat)
    (fits : within + count ≤ (encode item).length) :
    pread (encodeAll encode items) (offset + within) count =
      pread (encode item) within count := by
  rcases split_of_itemAt found with ⟨before, after, rfl, rfl, _⟩
  rw [encodeAll_append, encodeAll_cons, ← List.append_assoc]
  exact pread_within fits

/-- A write over the front of an item that turns its bytes into those of
another item. -/
theorem pwrite_item (found : itemAt encode items offset = some item) {text : Bytes}
    (fits : text.length ≤ (encode item).length)
    (turned : encode new = text ++ (encode item).drop text.length) :
    pwrite (encodeAll encode items) offset text =
      encodeAll encode (replaceAt encode items offset new) := by
  rcases split_of_itemAt found with ⟨before, after, rfl, rfl, replaced⟩
  rw [replaced, encodeAll_append, encodeAll_append, encodeAll_cons, encodeAll_cons,
    ← List.append_assoc, ← List.append_assoc, turned]
  exact pwrite_within fits

theorem pwrite_new (items : List Item) (new : Item) :
    pwrite (encodeAll encode items) (encodeAll encode items).length (encode new) =
      encodeAll encode (items ++ [new]) := by
  rw [pwrite_end, encodeAll_append, encodeAll_cons]
  simp only [encodeAll, List.flatMap_nil, List.append_nil]

end Items

end Apue.Foundation
