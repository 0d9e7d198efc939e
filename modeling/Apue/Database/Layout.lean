import Apue.Database.Calls

/-! # How the files are laid out

When no call of the library is under way, the two files describe themselves: the
index file is a row of records behind its pointer fields, every record is on one
of the lists, and the data records that they name fill the data file.
-/

namespace Apue.Database

open Apue.Foundation Ascii

/-- The pointer field at an offset of the index file. -/
def pointerAt (idx : Bytes) (offset : Nat) : Option Nat :=
  some (atol (pread idx offset PTR_SZ)).toNat

def encodeRecord (record : Pointer × Body) : Bytes :=
  (IndexItem.record record.1 record.2).encode

/-- The pointer fields and the records of an index file, and the offsets that
the free list and the hash chains visit. -/
structure Layout where
  heads : List Pointer
  records : List (Pointer × Body)
  free : List Nat
  chain : Chain → List Nat

namespace Layout

/-- The index records with their offsets. -/
def places (layout : Layout) : List (Nat × (Pointer × Body)) :=
  placed encodeRecord recordsOffset layout.records

def bodies (layout : Layout) : List Body := layout.records.map Prod.snd

structure Describes (layout : Layout) (idx dat : Bytes) : Prop where
  heads_length : layout.heads.length = NHASH_DEF + 1
  index : idx = layout.heads.flatMap (fun pointer => encodePointer pointer.1) ++ [NEWLINE] ++
    layout.records.flatMap encodeRecord
  free_linked : Linked (pointerAt idx) FREE_OFF layout.free
  chain_linked : ∀ chain, Linked (pointerAt idx) (headOffset chain) (layout.chain chain)
  once : (layout.free ++ (List.finRange NHASH_DEF).flatMap layout.chain).Perm
    (layout.places.map Prod.fst)
  hashes : ∀ place ∈ layout.places, ∀ chain, place.1 ∈ layout.chain chain →
    chainOf place.2.2.key = chain
  keys : ∀ place ∈ layout.places, ∀ other ∈ layout.places, ∀ chain chain',
    place.1 ∈ layout.chain chain → other.1 ∈ layout.chain chain' →
      place.2.2.key = other.2.2.key → place.1 = other.1
  spans_disjoint : layout.bodies.Pairwise fun left right =>
    left.datoff + left.datlen ≤ right.datoff ∨ right.datoff + right.datlen ≤ left.datoff
  spans_cover : ∀ byte < dat.length, ∃ body ∈ layout.bodies,
    body.datoff ≤ byte ∧ byte < body.datoff + body.datlen
  spans_end : ∀ body ∈ layout.bodies, dat[body.datoff + body.datlen - 1]? = some NEWLINE

theorem places_nodup (layout : Layout) : (layout.places.map Prod.fst).Nodup :=
  placed_nodup (fun _ => IndexItem.encode_nonempty _) _ _

theorem bodies_eq (layout : Layout) :
    layout.bodies = layout.places.map fun place => place.2.2 := by
  have records : layout.places.map Prod.snd = layout.records := placed_map_snd _ _
  rw [bodies, ← records, List.map_map]
  rfl

end Layout

section

variable {Process : Type} [DecidableEq Process] {ghost : Ghost Process} {state : State Process}

/-! ## The rows of items -/

/-- Items of one kind are all made in one way. -/
theorem parts_of_kinds {Item Part Kind : Type} {kind : Item → Kind} {expected : Kind}
    (make : Part → Item) (made : ∀ item, kind item = expected → ∃ part, item = make part)
    {items : List Item} {count : Nat} (kinds : items.map kind = List.replicate count expected) :
    ∃ parts : List Part, parts.length = count ∧ items = parts.map make := by
  induction items generalizing count with
  | nil =>
      have length := congrArg List.length kinds
      rw [List.length_replicate] at length
      exact ⟨[], length, rfl⟩
  | cons item items hypothesis =>
      cases count with
      | zero => cases kinds
      | succ count =>
          rw [List.map_cons, List.replicate_succ, List.cons.injEq] at kinds
          rcases made item kinds.1 with ⟨part, rfl⟩
          rcases hypothesis kinds.2 with ⟨parts, length, rfl⟩
          exact ⟨part :: parts, congrArg Nat.succ length, rfl⟩

theorem Disk.WellShaped.split {disk : Disk} (shaped : disk.WellShaped) :
    ∃ (heads : List Pointer) (records : List (Pointer × Body)),
      heads.length = NHASH_DEF + 1 ∧
      disk.idx = heads.map .head ++ [.newline] ++
        records.map fun record => .record record.1 record.2 := by
  rcases shaped with ⟨count, kinds⟩
  rcases List.map_eq_append_iff.mp kinds with ⟨front, back, split, frontKinds, backKinds⟩
  rcases List.map_eq_cons_iff.mp backKinds with ⟨item, rest, rfl, itemKind, restKinds⟩
  rcases parts_of_kinds IndexItem.head (by rintro ⟨⟩ <;> simp [IndexItem.kind])
    frontKinds with ⟨heads, length, rfl⟩
  rcases parts_of_kinds (fun record : Pointer × Body => IndexItem.record record.1 record.2)
    (by rintro ⟨⟩ <;> simp [IndexItem.kind]) restKinds with ⟨records, _, rfl⟩
  cases item with
  | head pointer => cases itemKind
  | newline => exact ⟨heads, records, length, by rw [split, List.append_assoc]; rfl⟩
  | record pointer body => cases itemKind

section Rows

variable {disk : Disk} {heads : List Pointer} {records : List (Pointer × Body)}
  {offset : Nat} {pointer : Pointer} {body : Body}

theorem encodeAll_heads (heads : List Pointer) :
    (encodeAll IndexItem.encode (heads.map .head ++ [.newline])).length =
      heads.length * PTR_SZ + 1 := by
  induction heads with
  | nil => rfl
  | cons head heads hypothesis =>
      rw [List.map_cons, List.cons_append, encodeAll_cons, List.length_append, hypothesis,
        IndexItem.encode, encodePointer_length, List.length_cons]
      ring

/-- The records of the index file are the items that its offsets lead to. -/
theorem item_eq_record_iff (length : heads.length = NHASH_DEF + 1)
    (split : disk.idx = heads.map .head ++ [.newline] ++
      records.map fun record => .record record.1 record.2) :
    disk.item offset = some (.record pointer body) ↔
      (offset, (pointer, body)) ∈ placed encodeRecord recordsOffset records := by
  have nonempty : ∀ record : Pointer × Body, 0 < (encodeRecord record).length :=
    fun record => IndexItem.encode_nonempty _
  have front : (encodeAll IndexItem.encode (heads.map .head ++ [.newline])).length =
      recordsOffset := by
    rw [encodeAll_heads, length]
    rfl
  rw [mem_placed nonempty, Disk.item, split, itemAt_append IndexItem.encode_nonempty, front,
    itemAt_map (fun _ => rfl)]
  by_cases early : offset < recordsOffset
  · rw [if_pos early]
    constructor
    · intro found
      have member := mem_of_itemAt found
      simp at member
    · intro behind
      omega
  · rw [if_neg early, Option.map_eq_some_iff]
    constructor
    · rintro ⟨record, found, equal⟩
      cases equal
      exact ⟨by omega, found⟩
    · rintro ⟨_, found⟩
      exact ⟨_, found, rfl⟩

end Rows

/-! ## When no call is under way -/

/-- No process knows more than what it has under way. -/
def Ghost.Resting (ghost : Ghost Process) : Prop :=
  ∀ process, ∃ pending, ghost.ledger.localOf process = atRest process pending

/-- The records of a part are those of a list. -/
structure Listed (entries : List Entry) (part : Part Process) : Prop where
  record : ∀ entry ∈ entries, part (.record entry.offset) = some entry.body
  extent : ∀ entry ∈ entries, part (.extent entry.body.datoff) = some entry.data
  offsets : (entries.map Entry.offset).Nodup
  datoffs : (entries.map fun entry => entry.body.datoff).Nodup
  covers : ∀ offset, part (.record offset) ≠ none → ∃ entry ∈ entries, entry.offset = offset
  coversData : ∀ offset, part (.extent offset) ≠ none →
    ∃ entry ∈ entries, entry.body.datoff = offset

theorem ListPart.listed {head : Nat} {entries : List Entry} {more : Option (Cell Process)}
    {part : Part Process} (list : ListPart head entries more part)
    (isTable : ∀ cell, more = some cell → ∃ chain, cell = .table chain) :
    Listed entries part where
  record := list.record
  extent := list.extent
  offsets := list.offsets
  datoffs := list.datoffs
  covers := by
    intro offset holds
    rcases list.only _ holds with isHead | isMore | ⟨entry, member, owned⟩
    · cases isHead
    · rcases isTable _ isMore with ⟨chain, equal⟩
      cases equal
    · rcases Entry.owns_iff.mp owned with equal | equal | equal
      · cases equal
      · exact ⟨entry, member, (Cell.record.inj equal).symm⟩
      · cases equal
  coversData := by
    intro offset holds
    rcases list.only _ holds with isHead | isMore | ⟨entry, member, owned⟩
    · cases isHead
    · rcases isTable _ isMore with ⟨chain, equal⟩
      cases equal
    · rcases Entry.owns_iff.mp owned with equal | equal | equal
      · cases equal
      · cases equal
      · exact ⟨entry, member, (Cell.extent.inj equal).symm⟩

omit [DecidableEq Process] in
theorem OnlyCell.listed {cell : Cell Process} {part : Part Process} (only : OnlyCell cell part)
    (record : ∀ offset, cell ≠ .record offset) (extent : ∀ offset, cell ≠ .extent offset) :
    Listed [] part where
  record := fun _ member => nomatch member
  extent := fun _ member => nomatch member
  offsets := List.nodup_nil
  datoffs := List.nodup_nil
  covers := fun offset holds => absurd (only _ holds).symm (record offset)
  coversData := fun offset holds => absurd (only _ holds).symm (extent offset)

/-- The records of all locks. -/
structure Lists (ghost : Ghost Process) where
  entries : LockName → List Entry
  tabulates : ∀ chain, Tabulates (entries (.chain chain)) (tableOn ghost.object.object chain)
  listed : ∀ name, Listed (entries name) (ghost.ledger.part (.lock name))
  free : FreePart (entries .free) (ghost.ledger.part (.lock .free))
  chain : ∀ chain, ChainList chain (entries (.chain chain))
    (ghost.ledger.part (.lock (.chain chain)))
  ends : entries .idxEnd = [] ∧ entries .datEnd = []

theorem Ghost.Resting.unlocked (resting : ghost.Resting) (valid : Valid ghost state)
    (name : LockName) : lockInv name (ghost.ledger.part (.lock name)) := by
  apply valid.consistent.unlocked
  intro process holds
  rcases resting process with ⟨pending, there⟩
  have held : (ghost.ledger.localOf process).held name = none := by
    rw [there]
    rfl
  cases held.symm.trans holds

theorem Valid.of_part (valid : Valid ghost state) {name : LockName} {cell : Cell Process}
    {value : Value cell} (stored : ghost.ledger.part (.lock name) cell = some value) :
    cellValue ghost.disk ghost.object cell = some value := by
  rw [← valid.values, Ledger.values, Ledger.part_eq_some.mp stored]
  rfl

theorem Ghost.Resting.lists (resting : ghost.Resting) (valid : Valid ghost state) :
    Nonempty (Lists ghost) := by
  rcases resting.unlocked valid .free with ⟨frees, free⟩
  rcases resting.unlocked valid .idxEnd with ⟨_, _, _, idxEnd⟩
  rcases resting.unlocked valid .datEnd with ⟨_, _, datEnd⟩
  choose chains tables chain using fun number => resting.unlocked valid (.chain number)
  refine ⟨
    { entries := fun
        | .free => frees
        | .chain number => chains number
        | .idxEnd => []
        | .datEnd => []
      listed := ?_
      free := free
      chain := fun number => (chain number).list
      ends := ⟨rfl, rfl⟩
      tabulates := ?_ }⟩
  · intro number
    have known := valid.of_part (chain number).stored
    rw [cellValue, Option.some.injEq] at known
    rw [known]
    exact (chain number).tabulates
  intro name
  cases name with
  | free => exact free.list.listed fun _ equal => by cases equal
  | chain number =>
      apply (chain number).list.list.listed
      exact fun cell equal => ⟨number, (Option.some.inj equal).symm⟩
  | idxEnd => exact idxEnd.listed (by simp) (by simp)
  | datEnd => exact datEnd.listed (by simp) (by simp)

/-- Every record and every data record is on the list of some lock. -/
theorem Ghost.Resting.owner (resting : ghost.Resting) {cell : Cell Process}
    (notStatus : ∀ process, cell ≠ .status process) {value : Value cell}
    (stored : ghost.ledger.values cell = some value) :
    ∃ name, ghost.ledger.part (.lock name) cell = some value := by
  rcases Option.map_eq_some_iff.mp stored with ⟨⟨owner, value'⟩, contents, rfl⟩
  cases owner with
  | lock name => exact ⟨name, Ledger.part_eq_some.mpr contents⟩
  | thread process =>
      rcases resting process with ⟨pending, there⟩
      have known : (ghost.ledger.localOf process).parts .own cell = some value' :=
        Ledger.part_eq_some.mpr contents
      have unknown : (atRest process pending).parts .own cell = none :=
        Function.update_of_ne (notStatus process) _ _
      rw [there, unknown] at known
      cases known

namespace Lists

variable (lists : Lists ghost) {name other : LockName} {entry entry' : Entry}

include lists in
theorem same_of_offset (member : entry ∈ lists.entries name)
    (member' : entry' ∈ lists.entries other) (same : entry.offset = entry'.offset) :
    name = other ∧ entry = entry' := by
  have record := Ledger.part_eq_some.mp ((lists.listed name).record entry member)
  have record' := Ledger.part_eq_some.mp ((lists.listed other).record entry' member')
  rw [same] at record
  have owners := congrArg Prod.fst (Option.some.inj (record.symm.trans record'))
  cases owners
  exact ⟨rfl, List.inj_on_of_nodup_map (lists.listed name).offsets member member' same⟩

include lists in
theorem same_of_datoff (member : entry ∈ lists.entries name)
    (member' : entry' ∈ lists.entries other) (same : entry.body.datoff = entry'.body.datoff) :
    name = other ∧ entry = entry' := by
  have extent := Ledger.part_eq_some.mp ((lists.listed name).extent entry member)
  have extent' := Ledger.part_eq_some.mp ((lists.listed other).extent entry' member')
  rw [same] at extent
  have owners := congrArg Prod.fst (Option.some.inj (extent.symm.trans extent'))
  cases owners
  exact ⟨rfl, List.inj_on_of_nodup_map (lists.listed name).datoffs member member' same⟩

include lists in
theorem item_of_entry (valid : Valid ghost state) (member : entry ∈ lists.entries name) :
    ∃ pointer, ghost.disk.item entry.offset = some (.record pointer entry.body) := by
  have stored := (lists.listed name).record entry member
  exact item_of_record (valid.of_part stored)

include lists in
theorem data_of_entry (valid : Valid ghost state) (member : entry ∈ lists.entries name) :
    ghost.disk.data entry.body.datoff = some entry.data :=
  valid.of_part ((lists.listed name).extent entry member)

include lists in
theorem entry_of_item (valid : Valid ghost state) (resting : ghost.Resting) {offset : Nat}
    {pointer : Pointer} {body : Body}
    (found : ghost.disk.item offset = some (.record pointer body)) :
    ∃ name, ∃ entry ∈ lists.entries name, entry.offset = offset ∧ entry.body = body := by
  have stored : ghost.ledger.values (.record offset) = some body := by
    rw [valid.values, cellValue, found]
    rfl
  rcases resting.owner (by simp) stored with ⟨name, part⟩
  rcases (lists.listed name).covers offset (by rw [part]; simp) with ⟨entry, member, rfl⟩
  refine ⟨name, entry, member, rfl, ?_⟩
  exact Option.some.inj (((lists.listed name).record entry member).symm.trans part)

include lists in
theorem entry_of_data (valid : Valid ghost state) (resting : ghost.Resting) {offset : Nat}
    {data : CString} (found : ghost.disk.data offset = some data) :
    ∃ name, ∃ entry ∈ lists.entries name, entry.body.datoff = offset ∧ entry.data = data := by
  have stored : ghost.ledger.values (.extent offset) = some data := by
    rw [valid.values, cellValue, found]
  rcases resting.owner (by simp) stored with ⟨name, part⟩
  rcases (lists.listed name).coversData offset (by rw [part]; simp) with ⟨entry, member, rfl⟩
  refine ⟨name, entry, member, rfl, ?_⟩
  exact Option.some.inj (((lists.listed name).extent entry member).symm.trans part)

/-- The offsets that the lists visit, every list behind the other. -/
def visited : List Nat :=
  (lists.entries .free).map Entry.offset ++
    (List.finRange NHASH_DEF).flatMap fun chain =>
      (lists.entries (.chain chain)).map Entry.offset

theorem mem_visited {offset : Nat} :
    offset ∈ lists.visited ↔ ∃ name, ∃ entry ∈ lists.entries name, entry.offset = offset := by
  simp only [visited, List.mem_append, List.mem_map, List.mem_flatMap, List.mem_finRange,
    true_and]
  constructor
  · rintro (⟨entry, member, same⟩ | ⟨chain, entry, member, same⟩)
    · exact ⟨.free, entry, member, same⟩
    · exact ⟨.chain chain, entry, member, same⟩
  · rintro ⟨name, entry, member, same⟩
    cases name with
    | free => exact Or.inl ⟨entry, member, same⟩
    | chain chain => exact Or.inr ⟨chain, entry, member, same⟩
    | idxEnd =>
        rw [lists.ends.1] at member
        cases member
    | datEnd =>
        rw [lists.ends.2] at member
        cases member

theorem visited_nodup : lists.visited.Nodup := by
  have apart : ∀ name other : LockName, name ≠ other →
      List.Disjoint ((lists.entries name).map Entry.offset)
        ((lists.entries other).map Entry.offset) := by
    intro name other different offset inName inOther
    rcases List.mem_map.mp inName with ⟨entry, member, rfl⟩
    rcases List.mem_map.mp inOther with ⟨entry', member', same⟩
    exact different (lists.same_of_offset member member' same.symm).1
  rw [visited, List.nodup_append']
  refine ⟨(lists.listed .free).offsets, ?_, ?_⟩
  · rw [List.nodup_flatMap]
    refine ⟨fun chain _ => (lists.listed (.chain chain)).offsets, ?_⟩
    apply (List.nodup_finRange NHASH_DEF).imp
    intro chain other different
    exact apart _ _ fun equal => different (LockName.chain.inj equal)
  · intro offset inFree inChains
    rcases List.mem_flatMap.mp inChains with ⟨chain, _, inChain⟩
    exact apart .free (.chain chain) (by simp) inFree inChain

end Lists

/-! ## The layout -/

theorem Valid.linked (valid : Valid ghost state) {name : LockName} {head : Nat}
    {offsets : List Nat}
    (linked : Linked (pointers (ghost.ledger.part (.lock name))) head offsets) :
    Linked (pointerAt ghost.disk.indexFile) head offsets := by
  apply linked.mono
  intro offset pointer stored
  rcases item_of_pointer (valid.of_part stored) with ⟨item, found, points⟩
  rw [pointerAt, Disk.pread_pointer found points, atol_encodePointer, Int.toNat_natCast]

/-- The data records of two records do not overlap. -/
theorem Lists.spans_disjoint (lists : Lists ghost) (valid : Valid ghost state)
    {name other : LockName} {entry entry' : Entry} (member : entry ∈ lists.entries name)
    (member' : entry' ∈ lists.entries other) (different : entry.offset ≠ entry'.offset) :
    entry.body.datoff + entry.body.datlen ≤ entry'.body.datoff ∨
      entry'.body.datoff + entry'.body.datlen ≤ entry.body.datoff := by
  have data := lists.data_of_entry valid member
  have data' := lists.data_of_entry valid member'
  have apart : entry.body.datoff ≠ entry'.body.datoff := fun same =>
    different (congrArg Entry.offset (lists.same_of_datoff member member' same).2)
  rw [entry.datlen_eq, entry'.datlen_eq, ← encodeData_length, ← encodeData_length]
  rcases Nat.lt_or_gt_of_ne apart with behind | before
  · exact Or.inl (itemAt_disjoint encodeData_nonempty data data' behind)
  · exact Or.inr (itemAt_disjoint encodeData_nonempty data' data before)

theorem data_end {disk : Disk} {offset : Nat} {data : CString}
    (found : disk.data offset = some data) :
    disk.dataFile[offset + (data.1.length + 1) - 1]? = some NEWLINE := by
  rcases split_of_itemAt found with ⟨before, after, split, length, _⟩
  have file : disk.dataFile =
      (encodeAll encodeData before ++ data.1) ++ NEWLINE :: encodeAll encodeData after := by
    rw [Disk.dataFile, split, encodeAll_append, encodeAll_cons, encodeData]
    simp only [List.append_assoc, List.cons_append, List.nil_append]
  rw [file, List.getElem?_append_right (by rw [List.length_append, length]; omega),
    List.length_append, length]
  have here : offset + (data.1.length + 1) - 1 - (offset + data.1.length) = 0 := by omega
  rw [here]
  rfl

/-- Files in which no call is under way are laid out well. -/
theorem Valid.layout (valid : Valid ghost state) (resting : ghost.Resting) :
    ∃ layout : Layout, layout.Describes (state.files .idx) (state.files .dat) := by
  rcases valid.shaped.split with ⟨heads, records, length, split⟩
  rcases resting.lists valid with ⟨lists⟩
  let layout : Layout :=
    { heads := heads
      records := records
      free := (lists.entries .free).map Entry.offset
      chain := fun chain => (lists.entries (.chain chain)).map Entry.offset }
  have place_iff : ∀ {offset pointer body},
      ghost.disk.item offset = some (.record pointer body) ↔
        (offset, (pointer, body)) ∈ layout.places :=
    item_eq_record_iff length split
  have entry_of_place : ∀ place ∈ layout.places, ∃ name, ∃ entry ∈ lists.entries name,
      entry.offset = place.1 ∧ entry.body = place.2.2 := fun place member =>
    lists.entry_of_item valid resting (place_iff.mpr member)
  have idx : state.files .idx = ghost.disk.indexFile := congrFun valid.files .idx
  have dat : state.files .dat = ghost.disk.dataFile := congrFun valid.files .dat
  have entry_of_chain : ∀ place ∈ layout.places, ∀ chain, place.1 ∈ layout.chain chain →
      ∃ entry ∈ lists.entries (.chain chain), entry.offset = place.1 ∧
        entry.body = place.2.2 := by
    intro place member chain visits
    rcases entry_of_place place member with ⟨name, entry, among, offset, body⟩
    rcases List.mem_map.mp visits with ⟨entry', among', offset'⟩
    rcases lists.same_of_offset among among' (offset.trans offset'.symm) with ⟨rfl, rfl⟩
    exact ⟨entry, among, offset, body⟩
  refine ⟨layout, ?_⟩
  rw [idx, dat]
  exact
    { heads_length := length
      index := by
        rw [Disk.indexFile, split, encodeAll_append, encodeAll_append]
        simp only [encodeAll, List.flatMap_map, List.flatMap_singleton]
        rfl
      free_linked := valid.linked lists.free.list.linked
      chain_linked := fun chain => valid.linked (lists.chain chain).list.linked
      once := by
        apply (List.perm_ext_iff_of_nodup lists.visited_nodup layout.places_nodup).mpr
        intro offset
        rw [lists.mem_visited]
        constructor
        · rintro ⟨name, entry, member, rfl⟩
          rcases lists.item_of_entry valid member with ⟨pointer, found⟩
          exact List.mem_map.mpr ⟨_, place_iff.mp found, rfl⟩
        · intro member
          rcases List.mem_map.mp member with ⟨place, among, rfl⟩
          rcases entry_of_place place among with ⟨name, entry, listed, offset, _⟩
          exact ⟨name, entry, listed, offset⟩
      hashes := by
        intro place member chain visits
        rcases entry_of_chain place member chain visits with ⟨entry, among, _, body⟩
        rw [← body]
        exact (lists.chain chain).hashes entry among
      keys := by
        intro place member other member' chain chain' visits visits' same
        rcases entry_of_chain place member chain visits with ⟨entry, among, offset, body⟩
        rcases entry_of_chain other member' chain' visits' with ⟨entry', among', offset', body'⟩
        rw [← body, ← body'] at same
        have isChain : chain = chain' := by
          rw [← (lists.chain chain).hashes entry among, same]
          exact (lists.chain chain').hashes entry' among'
        subst isChain
        have isEntry : entry = entry' :=
          List.inj_on_of_nodup_map (lists.chain chain).keys among among' same
        rw [← offset, isEntry, offset']
      spans_disjoint := by
        rw [layout.bodies_eq, List.pairwise_map]
        have apart := List.pairwise_map.mp layout.places_nodup
        refine apart.imp_of_mem fun {left right} member member' different => ?_
        rcases entry_of_place left member with ⟨name, entry, listed, offset, body⟩
        rcases entry_of_place right member' with ⟨other, entry', listed', offset', body'⟩
        rw [← body, ← body']
        apply lists.spans_disjoint valid listed listed'
        rwa [offset, offset']
      spans_cover := by
        intro byte inside
        rcases itemAt_covers encodeData_nonempty inside with ⟨offset, data, found, lower, upper⟩
        rcases lists.entry_of_data valid resting found with ⟨name, entry, member, rfl, rfl⟩
        rcases lists.item_of_entry valid member with ⟨pointer, item⟩
        refine ⟨entry.body, ?_, lower, ?_⟩
        · rw [layout.bodies_eq]
          exact List.mem_map.mpr ⟨_, place_iff.mp item, rfl⟩
        · rwa [entry.datlen_eq, ← encodeData_length]
      spans_end := by
        intro body member
        rw [layout.bodies_eq] at member
        rcases List.mem_map.mp member with ⟨place, among, rfl⟩
        rcases entry_of_place place among with ⟨name, entry, listed, _, body⟩
        rw [← body, entry.datlen_eq]
        exact data_end (lists.data_of_entry valid listed) }

end

end Apue.Database
