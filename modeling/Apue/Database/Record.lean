import Apue.Database.Machine

/-! # What the files hold

The index file is a row of items: the pointer fields of the free list and the
hash chains, a newline, and the index records. The data file is a row of data
records. Both are found by their offset, and a record that is rewritten keeps
its length.
-/

namespace Apue.Database

open Apue.Foundation Ascii

theorem decimal_noSep (number : Nat) : ∀ byte ∈ decimal number, byte ≠ SEP := by
  rintro byte member rfl
  exact absurd (decimal_isDigit number SEP member) (by decide)

theorem atol_of_decimal (number : Nat) : atol (decimal number) = number := by
  have read : atol ([] ++ decimal number ++ []) = number :=
    atol_decimal number (by simp) (by simp)
  rwa [List.nil_append, List.append_nil] at read

theorem printInt_natCast (number : Nat) : printInt number = decimal number := by
  rw [printInt, if_neg (by omega), Int.natAbs_natCast]

theorem splitSep_append {front : Bytes} (noSep : ∀ byte ∈ front, byte ≠ SEP)
    (rest : Bytes) : splitSep (front ++ SEP :: rest) = some (front, rest) := by
  have keep : ∀ byte ∈ front, (decide (byte ≠ SEP)) = true := by
    intro byte member
    exact decide_eq_true (noSep byte member)
  rw [splitSep, List.dropWhile_append_of_pos keep, List.takeWhile_append_of_pos keep,
    List.dropWhile_cons_of_neg (by simp), List.takeWhile_cons_of_neg (by simp),
    List.append_nil]

/-! ## Index records -/

abbrev Pointer := { offset : Nat // offset ≤ PTR_MAX }

def recordText (key : Bytes) (datoff datlen : Nat) : Bytes :=
  key ++ SEP :: decimal datoff ++ SEP :: decimal datlen ++ [NEWLINE]

/-- The text of an index record has a length that the library accepts. -/
def TextFits (key : Bytes) (datoff datlen : Nat) : Prop :=
  IDXLEN_MIN ≤ (recordText key datoff datlen).length ∧
    (recordText key datoff datlen).length ≤ IDXLEN_MAX

/-- An index record behind its chain pointer. -/
structure Body where
  key : Bytes
  datoff : Nat
  datlen : Nat
  noNul : ∀ byte ∈ key, byte ≠ 0
  noSep : ∀ byte ∈ key, byte ≠ SEP
  datlen_pos : 0 < datlen
  datlen_le : datlen ≤ DATLEN_MAX
  length_ge : IDXLEN_MIN ≤ (recordText key datoff datlen).length
  length_le : (recordText key datoff datlen).length ≤ IDXLEN_MAX

def Body.text (body : Body) : Bytes := recordText body.key body.datoff body.datlen

inductive IndexItem
  | head (pointer : Pointer)
  | newline
  | record (pointer : Pointer) (body : Body)

def encodePointer (pointer : Nat) : Bytes := padLeft PTR_SZ (decimal pointer)

def IndexItem.encode : IndexItem → Bytes
  | .head pointer => encodePointer pointer
  | .newline => [NEWLINE]
  | .record pointer body =>
      encodePointer pointer ++ padLeft IDXLEN_SZ (decimal body.text.length) ++ body.text

def IndexItem.pointer : IndexItem → Option Nat
  | .head pointer => some pointer
  | .newline => none
  | .record pointer _ => some pointer

def IndexItem.body : IndexItem → Option Body
  | .record _ body => some body
  | _ => none

/-- The item with another chain pointer. -/
def IndexItem.setPointer : IndexItem → Pointer → IndexItem
  | .head _, pointer => .head pointer
  | .newline, _ => .newline
  | .record _ body, pointer => .record pointer body

theorem encodePointer_length (pointer : Pointer) :
    (encodePointer pointer).length = PTR_SZ := by
  apply padLeft_length
  rw [decimal_length_le_iff (by decide)]
  exact Nat.lt_succ_of_le pointer.2

theorem lengthField_length (body : Body) :
    (padLeft IDXLEN_SZ (decimal body.text.length)).length = IDXLEN_SZ := by
  apply padLeft_length
  rw [decimal_length_le_iff (by decide)]
  have : body.text.length ≤ 1024 := body.length_le
  exact Nat.lt_of_le_of_lt this (by decide)

theorem encode_record_length (pointer : Pointer) (body : Body) :
    (IndexItem.record pointer body).encode.length = PTR_SZ + IDXLEN_SZ + body.text.length := by
  rw [IndexItem.encode, List.length_append, List.length_append, encodePointer_length,
    lengthField_length]

theorem IndexItem.encode_setPointer_length (item : IndexItem) (new : Pointer) :
    (item.setPointer new).encode.length = item.encode.length := by
  cases item with
  | head stored => exact (encodePointer_length new).trans (encodePointer_length stored).symm
  | newline => rfl
  | record stored body =>
      exact (encode_record_length new body).trans (encode_record_length stored body).symm

theorem IndexItem.encode_pointer_le (item : IndexItem) {pointer : Nat}
    (linked : item.pointer = some pointer) : PTR_SZ ≤ item.encode.length := by
  cases item with
  | head stored => exact (encodePointer_length stored).ge
  | newline => cases linked
  | record stored body =>
      rw [encode_record_length]
      omega

theorem IndexItem.setPointer_pointer {item : IndexItem} {pointer : Nat}
    (linked : item.pointer = some pointer) (new : Pointer) :
    (item.setPointer new).pointer = some new.1 := by
  cases item with
  | head => rfl
  | newline => cases linked
  | record => rfl

theorem IndexItem.encode_nonempty (item : IndexItem) : 0 < item.encode.length := by
  cases item with
  | head pointer =>
      rw [encode, encodePointer_length]
      decide
  | newline => decide
  | record pointer body =>
      rw [encode_record_length, PTR_SZ]
      omega

theorem atol_encodePointer (pointer : Nat) : atol (encodePointer pointer) = pointer := by
  have read : atol (padLeft PTR_SZ (decimal pointer) ++ []) = pointer :=
    atol_padLeft (by simp)
  rwa [List.append_nil] at read

theorem recordText_dropLast (key : Bytes) (datoff datlen : Nat) :
    (recordText key datoff datlen).dropLast =
      key ++ SEP :: (decimal datoff ++ SEP :: decimal datlen) := by
  rw [recordText, List.dropLast_concat, List.append_assoc, List.cons_append]

theorem recordText_getLast (key : Bytes) (datoff datlen : Nat) :
    (recordText key datoff datlen).getLast? = some NEWLINE := List.getLast?_concat

theorem cString_recordText {key : Bytes} (noNul : ∀ byte ∈ key, byte ≠ 0) (datoff datlen : Nat) :
    cString (recordText key datoff datlen).dropLast = (recordText key datoff datlen).dropLast := by
  apply cString_eq_self
  intro byte member
  rw [recordText_dropLast] at member
  rcases List.mem_append.mp member with inKey | behind
  · exact noNul byte inKey
  rcases List.mem_cons.mp behind with rfl | behind
  · decide
  rcases List.mem_append.mp behind with inOffset | behind
  · exact decimal_noNul _ byte inOffset
  rcases List.mem_cons.mp behind with rfl | inLength
  · decide
  · exact decimal_noNul _ byte inLength

theorem Body.text_getLast (body : Body) : body.text.getLast? = some NEWLINE :=
  recordText_getLast _ _ _

/-- The fields of an index record in front of its text. -/
def recordFront (pointer : Nat) (body : Body) : Bytes :=
  encodePointer pointer ++ padLeft IDXLEN_SZ (decimal body.text.length)

theorem recordFront_length (pointer : Pointer) (body : Body) :
    (recordFront pointer body).length = PTR_SZ + IDXLEN_SZ := by
  rw [recordFront, List.length_append, encodePointer_length, lengthField_length]

theorem recordFront_pointer (pointer : Pointer) (body : Body) :
    atol ((recordFront pointer body).take PTR_SZ) = pointer.1 := by
  rw [recordFront, List.take_left' (encodePointer_length pointer), atol_encodePointer]

theorem recordFront_idxlen (pointer : Pointer) (body : Body) :
    atol ((recordFront pointer body).drop PTR_SZ) = body.text.length := by
  have read : atol (padLeft IDXLEN_SZ (decimal body.text.length) ++ []) = body.text.length :=
    atol_padLeft (by simp)
  rw [List.append_nil] at read
  rw [recordFront, List.drop_left' (encodePointer_length pointer), read]

theorem Body.idxlen_limits (body : Body) :
    ¬ ((body.text.length : Int) < IDXLEN_MIN ∨ (body.text.length : Int) > IDXLEN_MAX) := by
  have := body.length_ge
  have := body.length_le
  rw [text]
  omega

theorem Body.datoff_nonneg (body : Body) : ¬ (body.datoff : Int) < 0 := by
  omega

theorem Body.datlen_limits (body : Body) :
    ¬ ((body.datlen : Int) ≤ 0 ∨ (body.datlen : Int) > DATLEN_MAX) := by
  have := body.datlen_pos
  have := body.datlen_le
  omega

theorem Body.splitSep_text (body : Body) : splitSep (cString body.text.dropLast) =
    some (body.key, decimal body.datoff ++ SEP :: decimal body.datlen) := by
  rw [text, cString_recordText body.noNul, recordText_dropLast, splitSep_append body.noSep]

theorem splitSep_numbers (datoff datlen : Nat) :
    splitSep (decimal datoff ++ SEP :: decimal datlen) = some (decimal datoff, decimal datlen) :=
  splitSep_append (decimal_noSep _) _

theorem sep_notMem_decimal (number : Nat) : SEP ∉ decimal number := fun member =>
  decimal_noSep number SEP member rfl

/-! ## Data records -/

def encodeData (data : CString) : Bytes := data.1 ++ [NEWLINE]

theorem encodeData_length (data : CString) :
    (encodeData data).length = data.1.length + 1 := List.length_append

theorem encodeData_nonempty (data : CString) : 0 < (encodeData data).length := by
  rw [encodeData_length]
  omega

theorem cString_data (data : CString) : cString (encodeData data).dropLast = data.1 := by
  rw [encodeData, List.dropLast_concat]
  exact cString_eq_self data.2

/-! ## Both files -/

structure Disk where
  idx : List IndexItem
  dat : List CString

namespace Disk

def indexFile (disk : Disk) : Bytes := encodeAll IndexItem.encode disk.idx

def dataFile (disk : Disk) : Bytes := encodeAll encodeData disk.dat

def files (disk : Disk) : File → Bytes
  | .idx => disk.indexFile
  | .dat => disk.dataFile

def item (disk : Disk) (offset : Nat) : Option IndexItem :=
  itemAt IndexItem.encode disk.idx offset

def data (disk : Disk) (offset : Nat) : Option CString := itemAt encodeData disk.dat offset

def setItem (disk : Disk) (offset : Nat) (item : IndexItem) : Disk :=
  { disk with idx := replaceAt IndexItem.encode disk.idx offset item }

def setData (disk : Disk) (offset : Nat) (data : CString) : Disk :=
  { disk with dat := replaceAt encodeData disk.dat offset data }

def addItem (disk : Disk) (item : IndexItem) : Disk :=
  { disk with idx := disk.idx ++ [item] }

def addData (disk : Disk) (data : CString) : Disk :=
  { disk with dat := disk.dat ++ [data] }

section

variable {disk : Disk} {offset : Nat} {old new : IndexItem} {oldData newData : CString}

theorem item_setItem (found : disk.item offset = some old)
    (size : new.encode.length = old.encode.length) (other : Nat) :
    (disk.setItem offset new).item other =
      if other = offset then some new else disk.item other :=
  itemAt_replaceAt IndexItem.encode_nonempty found size other

/-- An item lies inside the index file. -/
theorem item_within (found : disk.item offset = some old) :
    offset + old.encode.length ≤ disk.indexFile.length := by
  rcases split_of_itemAt found with ⟨before, after, split, rfl, _⟩
  rw [indexFile, split, encodeAll_append, encodeAll_cons, List.length_append, List.length_append]
  omega

theorem data_within (found : disk.data offset = some oldData) :
    offset + (encodeData oldData).length ≤ disk.dataFile.length := by
  rcases split_of_itemAt found with ⟨before, after, split, rfl, _⟩
  rw [dataFile, split, encodeAll_append, encodeAll_cons, List.length_append, List.length_append]
  omega

theorem indexFile_setItem_length (found : disk.item offset = some old)
    (size : new.encode.length = old.encode.length) :
    (disk.setItem offset new).indexFile.length = disk.indexFile.length :=
  encodeAll_replaceAt_length found size

theorem data_setData (found : disk.data offset = some oldData)
    (size : newData.1.length = oldData.1.length) (other : Nat) :
    (disk.setData offset newData).data other =
      if other = offset then some newData else disk.data other :=
  itemAt_replaceAt encodeData_nonempty found
    (by rw [encodeData_length, encodeData_length, size]) other

theorem dataFile_setData_length (found : disk.data offset = some oldData)
    (size : newData.1.length = oldData.1.length) :
    (disk.setData offset newData).dataFile.length = disk.dataFile.length :=
  encodeAll_replaceAt_length found (by rw [encodeData_length, encodeData_length, size])

theorem item_addItem (new : IndexItem) (other : Nat) :
    (disk.addItem new).item other =
      if other = disk.indexFile.length then some new else disk.item other :=
  itemAt_concat IndexItem.encode_nonempty disk.idx new

theorem data_addData (new : CString) (other : Nat) :
    (disk.addData new).data other =
      if other = disk.dataFile.length then some new else disk.data other :=
  itemAt_concat encodeData_nonempty disk.dat new

theorem indexFile_addItem_length (new : IndexItem) :
    (disk.addItem new).indexFile.length = disk.indexFile.length + new.encode.length := by
  rw [addItem, indexFile, encodeAll_append, List.length_append, indexFile, encodeAll_cons]
  simp [encodeAll]

theorem dataFile_addData_length (new : CString) :
    (disk.addData new).dataFile.length = disk.dataFile.length + (new.1.length + 1) := by
  rw [addData, dataFile, encodeAll_append, List.length_append, dataFile, encodeAll_cons]
  simp [encodeAll, encodeData_length]

/-! ### What the system calls do to the files -/

theorem pwrite_pointer (found : disk.item offset = some old) {pointer : Nat}
    (linked : old.pointer = some pointer) (new : Pointer) :
    pwrite disk.indexFile offset (encodePointer new) =
      (disk.setItem offset (old.setPointer new)).indexFile := by
  have size := encodePointer_length new
  cases old with
  | head stored =>
      apply pwrite_item found
      · rw [IndexItem.encode, encodePointer_length, encodePointer_length]
      · rw [IndexItem.encode, size, List.drop_eq_nil_of_le (encodePointer_length _).le,
          List.append_nil]
        rfl
  | newline => cases linked
  | record stored body =>
      apply pwrite_item found
      · rw [encode_record_length, encodePointer_length]
        omega
      · rw [IndexItem.encode, size, ← encodePointer_length stored, List.append_assoc,
          List.drop_left, ← List.append_assoc]
        rfl

theorem pwrite_record (found : disk.item offset = some old)
    (size : new.encode.length = old.encode.length) :
    pwrite disk.indexFile offset new.encode = (disk.setItem offset new).indexFile := by
  apply pwrite_item found size.le
  rw [size, List.drop_eq_nil_of_le (Nat.le_refl _), List.append_nil]

theorem pwrite_data (found : disk.data offset = some oldData)
    (size : newData.1.length = oldData.1.length) :
    pwrite disk.dataFile offset (encodeData newData) =
      (disk.setData offset newData).dataFile := by
  have same : (encodeData newData).length = (encodeData oldData).length := by
    rw [encodeData_length, encodeData_length, size]
  apply pwrite_item found same.le
  rw [same, List.drop_eq_nil_of_le (Nat.le_refl _), List.append_nil]

theorem pwrite_addItem (new : IndexItem) :
    pwrite disk.indexFile disk.indexFile.length new.encode = (disk.addItem new).indexFile :=
  pwrite_new disk.idx new

theorem pwrite_addData (new : CString) :
    pwrite disk.dataFile disk.dataFile.length (encodeData new) = (disk.addData new).dataFile :=
  pwrite_new disk.dat new

theorem pread_pointer (found : disk.item offset = some old) {pointer : Nat}
    (linked : old.pointer = some pointer) :
    pread disk.indexFile offset PTR_SZ = encodePointer pointer := by
  cases old with
  | head stored =>
      cases linked
      have read := pread_item found 0 PTR_SZ
        (by rw [IndexItem.encode, encodePointer_length]; decide)
      rw [Nat.add_zero] at read
      rw [indexFile, read, IndexItem.encode, pread, List.drop_zero]
      exact List.take_of_length_le (encodePointer_length _).le
  | newline => cases linked
  | record stored body =>
      cases linked
      have read := pread_item found 0 PTR_SZ
        (by rw [encode_record_length]; omega)
      rw [Nat.add_zero] at read
      rw [indexFile, read, IndexItem.encode, pread, List.drop_zero, List.append_assoc,
        ← encodePointer_length stored, List.take_left]

theorem pread_front {stored : Pointer} {body : Body}
    (found : disk.item offset = some (.record stored body)) :
    pread disk.indexFile offset (PTR_SZ + IDXLEN_SZ) = recordFront stored body := by
  have read := pread_item found 0 (PTR_SZ + IDXLEN_SZ)
    (by rw [encode_record_length]; omega)
  rw [Nat.add_zero] at read
  rw [indexFile, read, IndexItem.encode, pread, List.drop_zero, ← recordFront_length stored body]
  exact List.take_left

theorem pread_text {stored : Pointer} {body : Body}
    (found : disk.item offset = some (.record stored body)) :
    pread disk.indexFile (offset + (PTR_SZ + IDXLEN_SZ)) body.text.length = body.text := by
  have read := pread_item found (PTR_SZ + IDXLEN_SZ) body.text.length
    (by rw [encode_record_length])
  rw [indexFile, read, IndexItem.encode, pread, ← recordFront_length stored body, recordFront,
    List.drop_left, List.take_length]

theorem pread_data (found : disk.data offset = some oldData) :
    pread disk.dataFile offset (oldData.1.length + 1) = encodeData oldData := by
  have read := pread_item found 0 (oldData.1.length + 1)
    (by rw [encodeData_length]; omega)
  rw [Nat.add_zero] at read
  rw [dataFile, read, pread, List.drop_zero, ← encodeData_length, List.take_length]

end

end Disk

end Apue.Database
