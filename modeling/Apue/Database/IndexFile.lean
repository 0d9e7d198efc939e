import Apue.Database.Concurrent

/-! # Index files on their own

An index file whose pointers lead to records, whatever the keys are and whatever
is in the data file. A record that is rewritten keeps its length, and no record
goes away, so the offsets of the records stay good.
-/

namespace Apue.Database

open Apue.Foundation Ascii

/-- The file begins with the pointer fields of the free list and of the hash
chains, and a newline. -/
def HasHeader (index : Bytes) : Prop :=
  ∃ pointers : List Pointer, pointers.length = NHASH_DEF + 1 ∧
    pointers.flatMap (fun pointer => encodePointer pointer.1) ++ [NEWLINE] <+: index

theorem HasHeader.length_le {index : Bytes} (header : HasHeader index) :
    recordsOffset ≤ index.length := by
  rcases header with ⟨pointers, count, begins⟩
  have fields : (pointers.flatMap fun pointer => encodePointer pointer.1).length =
      (NHASH_DEF + 1) * PTR_SZ := by
    rw [← count]
    clear count begins
    induction pointers with
    | nil => rfl
    | cons pointer pointers hypothesis =>
        rw [List.flatMap_cons, List.length_append, hypothesis, encodePointer_length,
          List.length_cons]
        ring
  have inside := begins.length_le
  rwa [List.length_append, fields] at inside

/-! ## Pieces -/

/-- An index record whose key may be any string. -/
structure Row where
  pointer : Pointer
  key : Bytes
  datoff : Nat
  datlen : Nat
  noNul : ∀ byte ∈ key, byte ≠ 0
  datlen_pos : 0 < datlen
  datlen_le : datlen ≤ DATLEN_MAX
  length_ge : IDXLEN_MIN ≤ (recordText key datoff datlen).length
  length_le : (recordText key datoff datlen).length ≤ IDXLEN_MAX

def Row.text (row : Row) : Bytes := recordText row.key row.datoff row.datlen

/-- The text of a record behind its chain pointer, with its length in front. -/
def Row.rest (row : Row) : Bytes :=
  padLeft IDXLEN_SZ (decimal row.text.length) ++ row.text

inductive Piece
  | field (pointer : Pointer)
  | newline
  | row (row : Row)

namespace Piece

def encode : Piece → Bytes
  | field pointer => encodePointer pointer
  | newline => [NEWLINE]
  | row record => encodePointer record.pointer ++ record.rest

def kind : Piece → ItemKind
  | field _ => .head
  | newline => .newline
  | row _ => .record

def pointer : Piece → Option Pointer
  | field pointer => some pointer
  | newline => none
  | row record => some record.pointer

/-- The length of the text of a record. -/
def size : Piece → Option Nat
  | row record => some record.text.length
  | _ => none

def setPointer : Piece → Pointer → Piece
  | field _, new => field new
  | newline, _ => newline
  | row record, new => row { record with pointer := new }

/-- What a piece has behind its pointer. -/
def behind : Piece → Bytes
  | row record => record.rest
  | _ => []

theorem encode_of_pointer {piece : Piece} {pointer : Pointer} (points : piece.pointer = some pointer) :
    piece.encode = encodePointer pointer ++ piece.behind := by
  cases piece with
  | field stored =>
      cases points
      exact (List.append_nil _).symm
  | newline => cases points
  | row record =>
      cases points
      rfl

theorem encode_setPointer {piece : Piece} {pointer : Pointer} (points : piece.pointer = some pointer)
    (new : Pointer) : (piece.setPointer new).encode = encodePointer new ++ piece.behind := by
  cases piece with
  | field stored => exact (List.append_nil _).symm
  | newline => cases points
  | row record => rfl

@[simp] theorem setPointer_kind (piece : Piece) (new : Pointer) :
    (piece.setPointer new).kind = piece.kind := by
  cases piece <;> rfl

@[simp] theorem setPointer_size (piece : Piece) (new : Pointer) :
    (piece.setPointer new).size = piece.size := by
  cases piece <;> rfl

theorem size_eq_some {piece : Piece} {length : Nat} (sized : piece.size = some length) :
    ∃ record, piece = row record ∧ record.text.length = length := by
  cases piece with
  | row record => exact ⟨record, rfl, Option.some.inj sized⟩
  | _ => cases sized

end Piece

namespace Row

theorem length_limits (record : Row) :
    IDXLEN_MIN ≤ record.text.length ∧ record.text.length ≤ IDXLEN_MAX :=
  ⟨record.length_ge, record.length_le⟩

theorem lengthField (record : Row) :
    (padLeft IDXLEN_SZ (decimal record.text.length)).length = IDXLEN_SZ := by
  apply padLeft_length
  rw [decimal_length_le_iff (by decide)]
  exact Nat.lt_of_le_of_lt record.length_limits.2 (by decide)

theorem rest_length (record : Row) : record.rest.length = IDXLEN_SZ + record.text.length := by
  rw [rest, List.length_append, record.lengthField]

theorem encode_length (record : Row) :
    (Piece.row record).encode.length = PTR_SZ + (IDXLEN_SZ + record.text.length) := by
  rw [Piece.encode, List.length_append, encodePointer_length, record.rest_length]

end Row

theorem Piece.encode_nonempty (piece : Piece) : 0 < piece.encode.length := by
  cases piece with
  | field pointer =>
      rw [encode, encodePointer_length]
      decide
  | newline => decide
  | row record =>
      rw [record.encode_length, PTR_SZ]
      omega

/-! ## Index files -/

abbrev Pieces : Type := List Piece

namespace Pieces

variable (pieces : Pieces)

def file : Bytes := encodeAll Piece.encode pieces

/-- The piece at an offset. -/
def get (offset : Nat) : Option Piece := itemAt Piece.encode pieces offset

/-- The length of the text of the record at an offset. -/
def sizes (offset : Nat) : Option Nat := (pieces.get offset).bind Piece.size

def set (offset : Nat) (new : Piece) : Pieces := replaceAt Piece.encode pieces offset new

/-- The file has its header and then records only, and every pointer is 0 or leads
to a record. -/
structure WellFormed : Prop where
  shaped : ∃ records, pieces.map Piece.kind =
    List.replicate (NHASH_DEF + 1) .head ++ .newline :: List.replicate records .record
  linked : ∀ piece ∈ pieces, ∀ pointer : Pointer, piece.pointer = some pointer →
    pointer.1 = 0 ∨ pieces.sizes pointer ≠ none

variable {pieces} {offset : Nat} {old new : Piece}

theorem split_shaped {records : Nat} (shaped : pieces.map Piece.kind =
    List.replicate (NHASH_DEF + 1) .head ++ .newline :: List.replicate records .record) :
    ∃ (heads : List Pointer) (rows : List Row), heads.length = NHASH_DEF + 1 ∧
      pieces = heads.map .field ++ .newline :: rows.map .row := by
  rcases List.map_eq_append_iff.mp shaped with ⟨front, back, split, frontKinds, backKinds⟩
  rcases List.map_eq_cons_iff.mp backKinds with ⟨piece, rest, rfl, pieceKind, restKinds⟩
  rcases parts_of_kinds Piece.field (by rintro ⟨⟩ <;> simp [Piece.kind]) frontKinds with
    ⟨heads, length, rfl⟩
  rcases parts_of_kinds Piece.row (by rintro ⟨⟩ <;> simp [Piece.kind]) restKinds with
    ⟨rows, _, rfl⟩
  cases piece with
  | newline => exact ⟨heads, rows, length, split⟩
  | field pointer => cases pieceKind
  | row record => cases pieceKind

theorem fields_length (heads : List Pointer) :
    (encodeAll Piece.encode (heads.map .field)).length = heads.length * PTR_SZ := by
  induction heads with
  | nil => rfl
  | cons head heads hypothesis =>
      rw [List.map_cons, encodeAll_cons, List.length_append, hypothesis, Piece.encode,
        encodePointer_length, List.length_cons]
      ring

theorem get_heads {heads : List Pointer} (rest : List Piece) {field : Nat}
    (inside : field < heads.length) :
    get (heads.map .field ++ rest) (field * PTR_SZ) = some (.field heads[field]) := by
  have split : heads.map Piece.field ++ rest = (heads.take field).map .field ++
      .field heads[field] :: ((heads.drop (field + 1)).map .field ++ rest) := by
    rw [← List.cons_append, ← List.map_cons, ← List.append_assoc, ← List.map_append,
      List.cons_getElem_drop_succ, List.take_append_drop]
  have front : (encodeAll Piece.encode ((heads.take field).map .field)).length =
      field * PTR_SZ := by
    rw [fields_length, List.length_take, Nat.min_eq_left (Nat.le_of_lt inside)]
  rw [get, split, ← front]
  exact itemAt_split Piece.encode_nonempty _ _ _

section Offsets

variable (wellFormed : pieces.WellFormed)
include wellFormed

theorem WellFormed.header : HasHeader pieces.file := by
  rcases wellFormed.shaped with ⟨records, shaped⟩
  rcases split_shaped shaped with ⟨heads, rows, length, rfl⟩
  refine ⟨heads, length, encodeAll Piece.encode (rows.map .row), ?_⟩
  rw [file, encodeAll_append, encodeAll_cons, ← List.append_assoc]
  simp only [encodeAll, List.flatMap_map]
  rfl

theorem WellFormed.get_field {field : Nat} (inside : field < NHASH_DEF + 1) :
    ∃ pointer, pieces.get (field * PTR_SZ) = some (.field pointer) := by
  rcases wellFormed.shaped with ⟨records, shaped⟩
  rcases split_shaped shaped with ⟨heads, rows, length, rfl⟩
  rw [← length] at inside
  exact ⟨heads[field], get_heads _ inside⟩

end Offsets

/-! ### Reading -/

theorem pread_pointer {pointer : Pointer} (found : pieces.get offset = some old)
    (points : old.pointer = some pointer) :
    pread pieces.file offset PTR_SZ = encodePointer pointer := by
  have size := encodePointer_length pointer
  have read := pread_item found 0 PTR_SZ (by
    rw [Piece.encode_of_pointer points, List.length_append, size]
    omega)
  rw [Nat.add_zero] at read
  rw [file, read, Piece.encode_of_pointer points, pread, List.drop_zero, ← size, List.take_left]

theorem pread_front {record : Row} (found : pieces.get offset = some (.row record)) :
    pread pieces.file offset (PTR_SZ + IDXLEN_SZ) =
      encodePointer record.pointer ++ padLeft IDXLEN_SZ (decimal record.text.length) := by
  have size : (encodePointer record.pointer ++
      padLeft IDXLEN_SZ (decimal record.text.length)).length = PTR_SZ + IDXLEN_SZ := by
    rw [List.length_append, encodePointer_length, record.lengthField]
  have read := pread_item found 0 (PTR_SZ + IDXLEN_SZ) (by
    rw [record.encode_length]
    omega)
  rw [Nat.add_zero] at read
  rw [file, read, Piece.encode, Row.rest, ← List.append_assoc, pread, List.drop_zero, ← size,
    List.take_left]

theorem pread_text {record : Row} (found : pieces.get offset = some (.row record)) :
    pread pieces.file (offset + (PTR_SZ + IDXLEN_SZ)) record.text.length = record.text := by
  have size : (encodePointer record.pointer ++
      padLeft IDXLEN_SZ (decimal record.text.length)).length = PTR_SZ + IDXLEN_SZ := by
    rw [List.length_append, encodePointer_length, record.lengthField]
  have read := pread_item found (PTR_SZ + IDXLEN_SZ) record.text.length (by
    rw [record.encode_length]
    omega)
  rw [file, read, Piece.encode, Row.rest, ← List.append_assoc, pread, ← size, List.drop_left,
    List.take_length]

/-! ### Writing in place -/

theorem get_set (found : pieces.get offset = some old)
    (same : new.encode.length = old.encode.length) (other : Nat) :
    (pieces.set offset new).get other = if other = offset then some new else pieces.get other :=
  itemAt_replaceAt Piece.encode_nonempty found same other

theorem sizes_set (found : pieces.get offset = some old)
    (same : new.encode.length = old.encode.length) (size : new.size = old.size) :
    (pieces.set offset new).sizes = pieces.sizes := by
  funext other
  rw [sizes, sizes, get_set found same]
  by_cases here : other = offset
  · rw [if_pos here, here, found, Option.bind_some, Option.bind_some, size]
  · rw [if_neg here]

theorem file_set_length (found : pieces.get offset = some old)
    (same : new.encode.length = old.encode.length) :
    (pieces.set offset new).file.length = pieces.file.length :=
  encodeAll_replaceAt_length found same

/-- A pointer field or a record is replaced by one of its length, with a pointer
that leads to a record. -/
theorem WellFormed.set (wellFormed : pieces.WellFormed) (found : pieces.get offset = some old)
    (same : new.encode.length = old.encode.length) (kind : new.kind = old.kind)
    (size : new.size = old.size)
    (linked : ∀ pointer : Pointer, new.pointer = some pointer →
      pointer.1 = 0 ∨ pieces.sizes pointer ≠ none) :
    (pieces.set offset new).WellFormed := by
  have sizes := sizes_set found same size
  rcases split_of_itemAt found with ⟨before, after, split, _, replaced⟩
  rcases wellFormed.shaped with ⟨records, shaped⟩
  constructor
  · refine ⟨records, ?_⟩
    rw [← shaped, Pieces.set, replaced, split]
    simp only [List.map_append, List.map_cons, kind]
  · intro piece member pointer points
    rw [sizes]
    rw [Pieces.set, replaced] at member
    by_cases isNew : piece = new
    · rw [isNew] at points
      exact linked pointer points
    · have among : piece ∈ pieces := by
        rw [split]
        simp only [List.mem_append, List.mem_cons, isNew, false_or] at member ⊢
        exact member.imp_right Or.inr
      exact wellFormed.linked piece among pointer points

theorem encode_setPointer_length {pointer : Pointer} (points : old.pointer = some pointer)
    (new : Pointer) : (old.setPointer new).encode.length = old.encode.length := by
  rw [Piece.encode_setPointer points, Piece.encode_of_pointer points, List.length_append,
    List.length_append, encodePointer_length, encodePointer_length]

theorem pwrite_pointer {pointer : Pointer} (found : pieces.get offset = some old)
    (points : old.pointer = some pointer) (new : Pointer) :
    pwrite pieces.file offset (encodePointer new) = (pieces.set offset (old.setPointer new)).file := by
  have size : (encodePointer new).length = (encodePointer pointer).length :=
    (encodePointer_length new).trans (encodePointer_length pointer).symm
  apply pwrite_item found
  · rw [Piece.encode_of_pointer points, List.length_append, size]
    omega
  · rw [Piece.encode_setPointer points, Piece.encode_of_pointer points, size, List.drop_left]

theorem pwrite_row (found : pieces.get offset = some old)
    (same : new.encode.length = old.encode.length) :
    pwrite pieces.file offset new.encode = (pieces.set offset new).file := by
  apply pwrite_item found same.le
  rw [same, List.drop_eq_nil_of_le (Nat.le_refl _), List.append_nil]

/-! ### A record behind the others -/

theorem pwrite_end (pieces : Pieces) (new : Row) :
    pwrite pieces.file pieces.file.length (Piece.row new).encode =
      file (pieces ++ [.row new]) :=
  pwrite_new pieces (.row new)

theorem sizes_append (pieces : Pieces) (new : Row) (other : Nat) :
    sizes (pieces ++ [.row new]) other =
      if other = pieces.file.length then some new.text.length else pieces.sizes other := by
  have found : get (pieces ++ [.row new]) other =
      if other = pieces.file.length then some (.row new) else pieces.get other :=
    itemAt_concat Piece.encode_nonempty pieces (.row new)
  rw [sizes, found]
  split
  · rfl
  · rfl

theorem sizes_append_of_some {length : Nat} (sized : pieces.sizes offset = some length)
    (new : Row) : sizes (pieces ++ [.row new]) offset = some length := by
  have inside : offset ≠ pieces.file.length := by
    rintro rfl
    have beyond : pieces.get pieces.file.length = none :=
      itemAt_beyond Piece.encode_nonempty pieces (Nat.le_refl _)
    rw [sizes, beyond] at sized
    cases sized
  rw [sizes_append, if_neg inside, sized]

theorem WellFormed.append (wellFormed : pieces.WellFormed) {new : Row}
    (linked : new.pointer.1 = 0 ∨ pieces.sizes new.pointer ≠ none) :
    WellFormed (pieces ++ [.row new]) where
  shaped := by
    rcases wellFormed.shaped with ⟨records, shaped⟩
    refine ⟨records + 1, ?_⟩
    rw [List.map_append, shaped, List.append_assoc, List.cons_append, List.replicate_add records 1]
    rfl
  linked := by
    have kept : ∀ pointer : Pointer, pointer.1 = 0 ∨ pieces.sizes pointer ≠ none →
        pointer.1 = 0 ∨ sizes (pieces ++ [.row new]) pointer ≠ none := by
      rintro pointer (zero | sized)
      · exact Or.inl zero
      · rcases Option.ne_none_iff_exists'.mp sized with ⟨length, isLength⟩
        rw [sizes_append_of_some isLength]
        exact Or.inr (Option.some_ne_none _)
    intro piece member pointer points
    apply kept
    rcases List.mem_append.mp member with among | isNew
    · exact wellFormed.linked piece among pointer points
    · rw [List.mem_singleton.mp isNew] at points
      cases points
      exact linked

/-! ### A new database -/

/-- What `db_open` writes into an empty index file. -/
def fresh : Pieces := List.replicate (NHASH_DEF + 1) (.field noPointer) ++ [.newline]

theorem fresh_file : fresh.file = emptyIndex := by
  rw [fresh, file, encodeAll_append, emptyIndex]
  simp only [encodeAll, List.flatMap_replicate, List.flatMap_singleton]
  rfl

theorem fresh_wellFormed : fresh.WellFormed where
  shaped := by
    refine ⟨0, ?_⟩
    simp only [fresh, List.map_append, List.map_replicate]
    rfl
  linked := by
    intro piece member pointer points
    rcases List.mem_append.mp member with isField | isNewline
    · rw [List.eq_of_mem_replicate isField] at points
      cases points
      exact Or.inl rfl
    · rw [List.mem_singleton.mp isNewline] at points
      cases points

end Pieces

/-- The index file of a database that is sound. -/
def IsIndex (index : Bytes) : Prop := ∃ pieces : Pieces, pieces.WellFormed ∧ index = pieces.file

/-! ### Files that are laid out well -/

/-- What a list comes to from any of its pointer fields is 0 or on the list. -/
theorem linked_next {next : Nat → Option Nat} {field offset : Nat} {cells : List Nat}
    (linked : Linked next field cells) (among : offset ∈ field :: cells) :
    ∃ cell, next offset = some cell ∧ (cell = 0 ∨ cell ∈ cells) := by
  induction cells generalizing field with
  | nil => exact ⟨0, by rw [List.mem_singleton.mp among]; exact linked, Or.inl rfl⟩
  | cons cell cells hypothesis =>
      rcases List.mem_cons.mp among with rfl | behind
      · exact ⟨cell, linked.1, Or.inr List.mem_cons_self⟩
      · rcases hypothesis linked.2 behind with ⟨last, found, place⟩
        exact ⟨last, found, place.imp_right (List.mem_cons_of_mem _)⟩

namespace Layout

def row (record : Pointer × Body) : Row :=
  { record.2 with pointer := record.1 }

def pieces (layout : Layout) : Pieces :=
  layout.heads.map .field ++ .newline :: layout.records.map fun record => .row (row record)

variable {layout : Layout} {idx dat : Bytes}

theorem encode_row (record : Pointer × Body) :
    (Piece.row (row record)).encode = encodeRecord record := by
  rw [Piece.encode, Row.rest, ← List.append_assoc]
  rfl

theorem Describes.file (describes : layout.Describes idx dat) : idx = layout.pieces.file := by
  rw [describes.index, Pieces.file, pieces, encodeAll_append, encodeAll_cons, List.append_assoc]
  simp only [encodeAll, List.flatMap_map, encode_row]
  rfl

theorem get_behind (layout : Layout) (length : layout.heads.length = NHASH_DEF + 1)
    {place : Nat × (Pointer × Body)} (member : place ∈ layout.places) :
    layout.pieces.get place.1 = some (.row (row place.2)) := by
  have nonempty : ∀ record : Pointer × Body, 0 < (encodeRecord record).length :=
    fun record => IndexItem.encode_nonempty _
  rcases (mem_placed nonempty).mp member with ⟨behind, found⟩
  have front : (encodeAll Piece.encode (layout.heads.map Piece.field ++ [.newline])).length =
      recordsOffset := by
    rw [encodeAll_append, List.length_append, Pieces.fields_length, length]
    rfl
  rw [Pieces.get, pieces, List.append_cons, itemAt_append Piece.encode_nonempty, front,
    if_neg (Nat.not_lt.mpr behind), itemAt_map encode_row, found]
  rfl

/-- The list that a place of the index file is on. -/
def IsOn (layout : Layout) (idx : Bytes) (offset : Nat) : Prop :=
  ∃ field cells, Linked (pointerAt idx) field cells ∧ offset ∈ field :: cells ∧
    ∀ cell ∈ cells, cell ∈ layout.places.map Prod.fst

theorem Describes.isOn_free (describes : layout.Describes idx dat) {offset : Nat}
    (among : offset ∈ FREE_OFF :: layout.free) : layout.IsOn idx offset := by
  refine ⟨FREE_OFF, layout.free, describes.free_linked, among, fun cell member => ?_⟩
  exact describes.once.mem_iff.mp (List.mem_append_left _ member)

theorem Describes.isOn_chain (describes : layout.Describes idx dat) {offset : Nat} {chain : Chain}
    (among : offset ∈ headOffset chain :: layout.chain chain) : layout.IsOn idx offset := by
  refine ⟨headOffset chain, layout.chain chain, describes.chain_linked chain, among,
    fun cell member => ?_⟩
  apply describes.once.mem_iff.mp
  apply List.mem_append_right
  exact List.mem_flatMap.mpr ⟨chain, List.mem_finRange chain, member⟩

theorem Describes.field_isOn (describes : layout.Describes idx dat) {field : Nat}
    (inside : field < NHASH_DEF + 1) : layout.IsOn idx (field * PTR_SZ) := by
  cases field with
  | zero =>
      apply describes.isOn_free
      rw [Nat.zero_mul]
      exact List.mem_cons_self
  | succ chain =>
      have start : headOffset ⟨chain, Nat.lt_of_succ_lt_succ inside⟩ = (chain + 1) * PTR_SZ := by
        rw [headOffset, Nat.add_mul, Nat.one_mul]
        rfl
      rw [← start]
      exact describes.isOn_chain List.mem_cons_self

theorem Describes.place_isOn (describes : layout.Describes idx dat) {offset : Nat}
    (member : offset ∈ layout.places.map Prod.fst) : layout.IsOn idx offset := by
  rcases List.mem_append.mp (describes.once.mem_iff.mpr member) with isFree | inChain
  · exact describes.isOn_free (List.mem_cons_of_mem _ isFree)
  · rcases List.mem_flatMap.mp inChain with ⟨chain, _, among⟩
    exact describes.isOn_chain (List.mem_cons_of_mem _ among)

/-- Files that are laid out well have a sound index. -/
theorem Describes.isIndex (describes : layout.Describes idx dat) : IsIndex idx := by
  have length := describes.heads_length
  have sized : ∀ cell ∈ layout.places.map Prod.fst, layout.pieces.sizes cell ≠ none := by
    intro cell member
    rcases List.mem_map.mp member with ⟨place, among, rfl⟩
    rw [Pieces.sizes, layout.get_behind length among]
    exact Option.some_ne_none _
  have leads : ∀ offset piece (pointer : Pointer), layout.IsOn idx offset →
      layout.pieces.get offset = some piece → piece.pointer = some pointer →
      pointer.1 = 0 ∨ layout.pieces.sizes pointer ≠ none := by
    intro offset piece pointer isOn found points
    rcases isOn with ⟨field, cells, linked, among, places⟩
    rcases linked_next linked among with ⟨cell, isNext, place⟩
    rw [pointerAt, describes.file, Pieces.pread_pointer found points, atol_encodePointer,
      Int.toNat_natCast, Option.some.injEq] at isNext
    rw [isNext]
    exact place.imp_right fun member => sized cell (places cell member)
  refine ⟨layout.pieces, ⟨⟨layout.records.length, ?_⟩, ?_⟩, describes.file⟩
  · rw [pieces, List.map_append, List.map_cons, List.map_map, List.map_map, ← length]
    simp only [Function.comp_def, Piece.kind, List.map_const']
  · intro piece member pointer points
    rw [pieces] at member
    rcases List.mem_append.mp member with isField | isBehind
    · rcases List.mem_map.mp isField with ⟨head, among, rfl⟩
      rcases List.mem_iff_getElem.mp among with ⟨field, inside, rfl⟩
      apply leads _ _ _ (describes.field_isOn (length ▸ inside)) (Pieces.get_heads _ inside) points
    · rcases List.mem_cons.mp isBehind with rfl | isRow
      · cases points
      · rcases List.mem_map.mp isRow with ⟨record, among, rfl⟩
        have placed : layout.places.map Prod.snd = layout.records := placed_map_snd _ _
        rw [← placed] at among
        rcases List.mem_map.mp among with ⟨place, isPlace, rfl⟩
        apply leads _ _ _ _ (layout.get_behind length isPlace) points
        exact describes.place_isOn (List.mem_map.mpr ⟨place, isPlace, rfl⟩)

end Layout

end Apue.Database
