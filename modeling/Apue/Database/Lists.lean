import Apue.Database.Dictionary
import Apue.Foundation.Ledger
import Apue.Foundation.LinkedCells

/-! # Hash chains and the free list

A database is made of cells: pointer fields, index records, data records, the
sizes of the files, and, for the proof only, the map itself and what each
process has under way. The locks of the library own them: every hash chain and
the free list its records, and the two ends of the files their sizes.
-/

namespace Apue.Database

open Apue.Foundation

inductive LockName
  | chain (chain : Chain)
  | free
  | idxEnd
  | datEnd
  deriving DecidableEq

inductive Cell (Process : Type)
  | pointer (offset : Nat)
  | record (offset : Nat)
  | extent (offset : Nat)
  | idxSize
  | datSize
  | table (chain : Chain)
  | status (process : Process)
  deriving DecidableEq

abbrev Value {Process : Type} : Cell Process → Type
  | .pointer _ => Nat
  | .record _ => Body
  | .extent _ => CString
  | .idxSize => Nat
  | .datSize => Nat
  | .table _ => Table
  | .status _ => Pending Call Return

abbrev Part (Process : Type) : Type := Fragment (@Value Process)

/-- A record of the database: its index record and its data. -/
structure Entry where
  offset : Nat
  body : Body
  data : CString
  behind_heads : (NHASH_DEF + 1) * PTR_SZ < offset
  offset_le : offset ≤ PTR_MAX
  datlen_eq : body.datlen = data.1.length + 1

/-- Where the pointer to the first record of a hash chain is. -/
def headOffset (chain : Chain) : Nat := chain * PTR_SZ + HASH_OFF

section

variable {Process : Type} [DecidableEq Process]

def Entry.owns (entry : Entry) (cell : Cell Process) : Bool :=
  cell = .pointer entry.offset || cell = .record entry.offset ||
    cell = .extent entry.body.datoff

def pointers (part : Part Process) (offset : Nat) : Option Nat := part (.pointer offset)

/-- A part that holds the records `entries`, linked from the pointer field at
`head`, and besides them at most the cell `more`. -/
structure ListPart (head : Nat) (entries : List Entry) (more : Option (Cell Process))
    (part : Part Process) : Prop where
  head_le : head ≤ (NHASH_DEF + 1) * PTR_SZ
  linked : Linked (pointers part) head (entries.map Entry.offset)
  record : ∀ entry ∈ entries, part (.record entry.offset) = some entry.body
  extent : ∀ entry ∈ entries, part (.extent entry.body.datoff) = some entry.data
  offsets : (entries.map Entry.offset).Nodup
  datoffs : (entries.map fun entry => entry.body.datoff).Nodup
  only : ∀ cell, part cell ≠ none →
    cell = .pointer head ∨ more = some cell ∨ ∃ entry ∈ entries, entry.owns cell = true

/-- The records of a hash chain. -/
structure ChainList (chain : Chain) (entries : List Entry) (part : Part Process) :
    Prop where
  list : ListPart (headOffset chain) entries (some (.table chain)) part
  hashes : ∀ entry ∈ entries, chainOf entry.body.key = chain
  keys : (entries.map fun entry => entry.body.key).Nodup

/-- The entries of a hash chain are what a map has for their keys. -/
structure Tabulates (entries : List Entry) (table : Table) : Prop where
  found : ∀ entry ∈ entries, table entry.body.key = some entry.data.1
  covered : ∀ key, table key ≠ none → ∃ entry ∈ entries, entry.body.key = key

/-- The part of the free list that nobody is writing. -/
structure FreePart (entries : List Entry) (part : Part Process) : Prop where
  list : ListPart FREE_OFF entries none part
  blank : ∀ entry ∈ entries, ∀ byte ∈ entry.body.key, byte = SPACE

/-- The part of a hash chain that nobody is writing. -/
structure ChainPart (chain : Chain) (entries : List Entry) (table : Table)
    (part : Part Process) : Prop where
  list : ChainList chain entries part
  stored : part (.table chain) = some table
  tabulates : Tabulates entries table

def OnlyCell (cell : Cell Process) (part : Part Process) : Prop :=
  ∀ other, part other ≠ none → other = cell

theorem OnlyCell.put {cell : Cell Process} {part : Part Process} (only : OnlyCell cell part)
    (value : Value cell) : OnlyCell cell (part.put cell value) := by
  intro other holds
  by_contra different
  rw [Fragment.put_of_ne _ _ different] at holds
  exact different (only other holds)

def lockInv : LockName → Part Process → Prop
  | .chain chain, part => ∃ entries table, ChainPart chain entries table part
  | .free, part => ∃ entries, FreePart entries part
  | .idxEnd, part => ∃ size : Nat, (NHASH_DEF + 1) * PTR_SZ < size ∧
      part .idxSize = some size ∧ OnlyCell .idxSize part
  | .datEnd, part => ∃ size : Nat, part .datSize = some size ∧ OnlyCell .datSize part

/-! ## Changing a list -/

theorem Entry.owns_iff {entry : Entry} {cell : Cell Process} :
    entry.owns cell = true ↔ cell = .pointer entry.offset ∨ cell = .record entry.offset ∨
      cell = .extent entry.body.datoff := by
  simp only [owns, Bool.or_eq_true, decide_eq_true_eq, or_assoc]

theorem Entry.owns_eq_false {entry : Entry} {cell : Cell Process} :
    entry.owns cell = false ↔ cell ≠ .pointer entry.offset ∧ cell ≠ .record entry.offset ∧
      cell ≠ .extent entry.body.datoff := by
  rw [← Bool.not_eq_true, Entry.owns_iff, not_or, not_or]

namespace ListPart

variable {head : Nat} {entries before after : List Entry} {entry : Entry}
  {more : Option (Cell Process)} {part part' : Part Process}

theorem length_le (list : ListPart head entries more part) : entries.length ≤ PTR_MAX := by
  have bound : (entries.map Entry.offset).length ≤ PTR_MAX - (NHASH_DEF + 1) * PTR_SZ := by
    apply length_le_of_nodup list.offsets
    · intro offset member
      rcases List.mem_map.mp member with ⟨entry, _, rfl⟩
      exact entry.behind_heads
    · intro offset member
      rcases List.mem_map.mp member with ⟨entry, _, rfl⟩
      exact entry.offset_le
  rw [List.length_map] at bound
  exact bound.trans (Nat.sub_le _ _)

theorem fields_nodup (list : ListPart head entries more part) :
    (head :: entries.map Entry.offset).Nodup := by
  refine List.nodup_cons.mpr ⟨fun member => ?_, list.offsets⟩
  rcases List.mem_map.mp member with ⟨entry, _, equal⟩
  have := entry.behind_heads
  have := list.head_le
  omega

/-- The parts agree on every cell that a list is made of. -/
theorem congr (list : ListPart head entries more part)
    (same : ∀ cell, more ≠ some cell → part' cell = part cell)
    (kind : ∀ cell, more = some cell → ∃ chain, cell = .table chain) :
    ListPart head entries more part' := by
  have pointer : ∀ offset, part' (.pointer offset) = part (.pointer offset) := by
    intro offset
    apply same
    intro isMore
    rcases kind _ isMore with ⟨chain, equal⟩
    cases equal
  refine
    { head_le := list.head_le
      linked := list.linked.congr fun offset _ => pointer offset
      record := ?_
      extent := ?_
      offsets := list.offsets
      datoffs := list.datoffs
      only := ?_ }
  · intro entry member
    rw [same, list.record entry member]
    intro isMore
    rcases kind _ isMore with ⟨chain, equal⟩
    cases equal
  · intro entry member
    rw [same, list.extent entry member]
    intro isMore
    rcases kind _ isMore with ⟨chain, equal⟩
    cases equal
  · intro cell holds
    by_cases isMore : more = some cell
    · exact Or.inr (Or.inl isMore)
    · rw [same cell isMore] at holds
      exact list.only cell holds

theorem not_mem_map {α β : Type} {f : α → β} {left right : List α} {middle : α}
    (distinct : ((left ++ middle :: right).map f).Nodup) :
    ∀ value ∈ left ++ right, f value ≠ f middle := by
  rw [List.map_append, List.map_cons, List.nodup_middle, ← List.map_append] at distinct
  intro value member equal
  exact (List.nodup_cons.mp distinct).1 (equal ▸ List.mem_map_of_mem member)

theorem nodup_map_remove {α β : Type} {f : α → β} {left right : List α} {middle : α}
    (distinct : ((left ++ middle :: right).map f).Nodup) : ((left ++ right).map f).Nodup := by
  rw [List.map_append, List.map_cons, List.nodup_middle, ← List.map_append] at distinct
  exact (List.nodup_cons.mp distinct).2

/-- One record is taken out of a list: the pointer to it is redirected, and its
cells go. -/
theorem remove (list : ListPart head (before ++ entry :: after) more part)
    (redirected : part' (.pointer (lastField head (before.map Entry.offset))) =
      some (firstCell (after.map Entry.offset)))
    (gone : ∀ cell, entry.owns cell = true → part' cell = none)
    (same : ∀ cell, cell ≠ .pointer (lastField head (before.map Entry.offset)) →
      entry.owns cell = false → part' cell = part cell) :
    ListPart head (before ++ after) more part' := by
  have fields := list.fields_nodup
  rw [List.map_append, List.map_cons] at fields
  have otherOffset := not_mem_map list.offsets
  have otherDatoff := not_mem_map list.datoffs
  have member_of : ∀ other ∈ before ++ after, other ∈ before ++ entry :: after := by
    intro other member
    rcases List.mem_append.mp member with left | right
    · exact List.mem_append_left _ left
    · exact List.mem_append_right _ (List.mem_cons_of_mem _ right)
  refine
    { head_le := list.head_le
      linked := ?_
      record := ?_
      extent := ?_
      offsets := nodup_map_remove list.offsets
      datoffs := nodup_map_remove list.datoffs
      only := ?_ }
  · have linked := list.linked
    rw [List.map_append, List.map_cons] at linked
    rw [List.map_append]
    refine linked.unlink fields redirected fun offset member notLast => ?_
    apply same _ (fun equal => notLast (Cell.pointer.inj equal))
    rw [Entry.owns_eq_false]
    refine ⟨fun equal => ?_, fun equal => (by cases equal), fun equal => (by cases equal)⟩
    cases equal
    have apart := List.nodup_cons.mp fields
    rcases List.mem_cons.mp member with isHead | inside
    · apply apart.1
      rw [← isHead]
      exact List.mem_append_right _ List.mem_cons_self
    · rw [← List.map_append] at inside
      rcases List.mem_map.mp inside with ⟨other, among, equal⟩
      exact otherOffset other among equal
  · intro other member
    rw [same _ (by simp), list.record other (member_of other member)]
    rw [Entry.owns_eq_false]
    refine ⟨by simp, fun equal => otherOffset other member (Cell.record.inj equal), by simp⟩
  · intro other member
    rw [same _ (by simp), list.extent other (member_of other member)]
    rw [Entry.owns_eq_false]
    refine ⟨by simp, by simp, fun equal => otherDatoff other member (Cell.extent.inj equal)⟩
  · intro cell holds
    have foreign : entry.owns cell = false := by
      rw [← Bool.not_eq_true]
      exact fun owned => holds (gone cell owned)
    by_cases isLast : cell = .pointer (lastField head (before.map Entry.offset))
    · rcases List.mem_cons.mp (lastField_mem head (before.map Entry.offset)) with
        isHead | inside
      · exact Or.inl (by rw [isLast, isHead])
      · rcases List.mem_map.mp inside with ⟨other, among, equal⟩
        refine Or.inr (Or.inr ⟨other, List.mem_append_left _ among, ?_⟩)
        rw [Entry.owns_iff, isLast, equal]
        exact Or.inl rfl
    · rw [same cell isLast foreign] at holds
      rcases list.only cell holds with isHead | isMore | ⟨other, among, owned⟩
      · exact Or.inl isHead
      · exact Or.inr (Or.inl isMore)
      · refine Or.inr (Or.inr ⟨other, ?_, owned⟩)
        rcases List.mem_append.mp among with left | right
        · exact List.mem_append_left _ left
        · rcases List.mem_cons.mp right with isEntry | right
          · rw [isEntry, foreign] at owned
            cases owned
          · exact List.mem_append_right _ right

/-- A record is put at the front of a list. -/
theorem push (list : ListPart head entries more part)
    (freshRecord : part (.record entry.offset) = none)
    (freshExtent : part (.extent entry.body.datoff) = none)
    (first : part' (.pointer head) = some entry.offset)
    (link : part' (.pointer entry.offset) = some (firstCell (entries.map Entry.offset)))
    (record : part' (.record entry.offset) = some entry.body)
    (extent : part' (.extent entry.body.datoff) = some entry.data)
    (same : ∀ cell, cell ≠ .pointer head → entry.owns cell = false →
      part' cell = part cell) :
    ListPart head (entry :: entries) more part' := by
  have newOffset : ∀ other ∈ entries, other.offset ≠ entry.offset := by
    intro other member equal
    have there := list.record other member
    rw [equal, freshRecord] at there
    cases there
  have newDatoff : ∀ other ∈ entries, other.body.datoff ≠ entry.body.datoff := by
    intro other member equal
    have there := list.extent other member
    rw [equal, freshExtent] at there
    cases there
  have headApart : ∀ other : Entry, other.offset ≠ head := by
    intro other
    have := other.behind_heads
    have := list.head_le
    omega
  have fields := List.nodup_cons.mp list.fields_nodup
  refine
    { head_le := list.head_le
      linked := ?_
      record := ?_
      extent := ?_
      offsets := ?_
      datoffs := ?_
      only := ?_ }
  · rw [List.map_cons]
    apply list.linked.push _ first link fields.1
    · intro offset member
      apply same _
      · intro equal
        cases equal
        exact fields.1 member
      · rcases List.mem_map.mp member with ⟨other, among, rfl⟩
        rw [Entry.owns_eq_false]
        exact ⟨fun equal => newOffset other among (Cell.pointer.inj equal), by simp, by simp⟩
    · intro member
      rcases List.mem_cons.mp member with isHead | inside
      · exact headApart entry isHead
      · rcases List.mem_map.mp inside with ⟨other, among, equal⟩
        exact newOffset other among equal
  · intro other member
    rcases List.mem_cons.mp member with rfl | among
    · exact record
    · rw [same _ (by simp), list.record other among]
      rw [Entry.owns_eq_false]
      exact ⟨by simp, fun equal => newOffset other among (Cell.record.inj equal), by simp⟩
  · intro other member
    rcases List.mem_cons.mp member with rfl | among
    · exact extent
    · rw [same _ (by simp), list.extent other among]
      rw [Entry.owns_eq_false]
      exact ⟨by simp, by simp, fun equal => newDatoff other among (Cell.extent.inj equal)⟩
  · rw [List.map_cons]
    refine List.nodup_cons.mpr ⟨fun member => ?_, list.offsets⟩
    rcases List.mem_map.mp member with ⟨other, among, equal⟩
    exact newOffset other among equal
  · rw [List.map_cons]
    refine List.nodup_cons.mpr ⟨fun member => ?_, list.datoffs⟩
    rcases List.mem_map.mp member with ⟨other, among, equal⟩
    exact newDatoff other among equal
  · intro cell holds
    by_cases isHead : cell = .pointer head
    · exact Or.inl isHead
    by_cases owned : entry.owns cell = true
    · exact Or.inr (Or.inr ⟨entry, List.mem_cons_self, owned⟩)
    · rw [same cell isHead (Bool.not_eq_true _ ▸ owned)] at holds
      rcases list.only cell holds with isHead | isMore | ⟨other, among, owned⟩
      · exact Or.inl isHead
      · exact Or.inr (Or.inl isMore)
      · exact Or.inr (Or.inr ⟨other, List.mem_cons_of_mem _ among, owned⟩)

/-- The data of a record is replaced in place. -/
theorem replaceData (list : ListPart head (before ++ entry :: after) more part)
    {entry' : Entry} (offset : entry'.offset = entry.offset) (body : entry'.body = entry.body)
    (extent : part' (.extent entry.body.datoff) = some entry'.data)
    (same : ∀ cell, cell ≠ .extent entry.body.datoff → part' cell = part cell) :
    ListPart head (before ++ entry' :: after) more part' := by
  have otherDatoff := not_mem_map list.datoffs
  have offsets : (before ++ entry' :: after).map Entry.offset =
      (before ++ entry :: after).map Entry.offset := by
    rw [List.map_append, List.map_cons, offset, List.map_append, List.map_cons]
  have datoffs : (before ++ entry' :: after).map (fun e => e.body.datoff) =
      (before ++ entry :: after).map (fun e => e.body.datoff) := by
    rw [List.map_append, List.map_cons, body, List.map_append, List.map_cons]
  have cases_of : ∀ other ∈ before ++ entry' :: after,
      other = entry' ∨ other ∈ before ++ after := by
    intro other member
    rcases List.mem_append.mp member with left | right
    · exact Or.inr (List.mem_append_left _ left)
    · rcases List.mem_cons.mp right with isEntry | right
      · exact Or.inl isEntry
      · exact Or.inr (List.mem_append_right _ right)
  have member_of : ∀ other ∈ before ++ after, other ∈ before ++ entry :: after := by
    intro other member
    rcases List.mem_append.mp member with left | right
    · exact List.mem_append_left _ left
    · exact List.mem_append_right _ (List.mem_cons_of_mem _ right)
  have entryMember : entry ∈ before ++ entry :: after :=
    List.mem_append_right _ List.mem_cons_self
  refine
    { head_le := list.head_le
      linked := ?_
      record := ?_
      extent := ?_
      offsets := by rw [offsets]; exact list.offsets
      datoffs := by rw [datoffs]; exact list.datoffs
      only := ?_ }
  · rw [offsets]
    exact list.linked.congr fun _ _ => same _ (by simp)
  · intro other member
    rw [same _ (by simp)]
    rcases cases_of other member with rfl | among
    · rw [offset, body, list.record entry entryMember]
    · exact list.record other (member_of other among)
  · intro other member
    rcases cases_of other member with rfl | among
    · rw [body, extent]
    · rw [same _ (fun equal => otherDatoff other among (Cell.extent.inj equal))]
      exact list.extent other (member_of other among)
  · intro cell holds
    have held : part cell ≠ none := by
      by_cases isExtent : cell = .extent entry.body.datoff
      · rw [isExtent, list.extent entry entryMember]
        exact Option.some_ne_none _
      · rwa [same cell isExtent] at holds
    rcases list.only cell held with isHead | isMore | ⟨other, among, owned⟩
    · exact Or.inl isHead
    · exact Or.inr (Or.inl isMore)
    · refine Or.inr (Or.inr ?_)
      rcases List.mem_append.mp among with left | right
      · exact ⟨other, List.mem_append_left _ left, owned⟩
      · rcases List.mem_cons.mp right with isEntry | right
        · refine ⟨entry', List.mem_append_right _ List.mem_cons_self, ?_⟩
          rw [isEntry] at owned
          rw [Entry.owns_iff, offset, body]
          exact Entry.owns_iff.mp owned
        · exact ⟨other, List.mem_append_right _ (List.mem_cons_of_mem _ right), owned⟩

end ListPart

theorem mem_of_mem_remove {before after : List Entry} {entry other : Entry}
    (member : other ∈ before ++ after) : other ∈ before ++ entry :: after := by
  rcases List.mem_append.mp member with left | right
  · exact List.mem_append_left _ left
  · exact List.mem_append_right _ (List.mem_cons_of_mem _ right)

namespace ChainList

variable {chain : Chain} {entries before after : List Entry} {entry : Entry}
  {part part' : Part Process}

/-- The map is no part of the list. -/
theorem setTable (list : ChainList chain entries part) (table : Table) :
    ChainList chain entries (part.put (.table chain) table) where
  list := list.list.congr
    (fun _ notTable => part.put_of_ne _ fun equal => notTable (congrArg some equal.symm))
    (fun _ isTable => ⟨chain, (Option.some.inj isTable).symm⟩)
  hashes := list.hashes
  keys := list.keys

theorem remove (list : ChainList chain (before ++ entry :: after) part)
    (removed : ListPart (headOffset chain) (before ++ after) (some (.table chain)) part') :
    ChainList chain (before ++ after) part' where
  list := removed
  hashes := fun other member => list.hashes other (mem_of_mem_remove member)
  keys := ListPart.nodup_map_remove list.keys

theorem push (list : ChainList chain entries part) (hash : chainOf entry.body.key = chain)
    (fresh : ∀ other ∈ entries, other.body.key ≠ entry.body.key)
    (pushed : ListPart (headOffset chain) (entry :: entries) (some (.table chain)) part') :
    ChainList chain (entry :: entries) part' where
  list := pushed
  hashes := by
    intro other member
    rcases List.mem_cons.mp member with rfl | among
    · exact hash
    · exact list.hashes other among
  keys := by
    rw [List.map_cons]
    refine List.nodup_cons.mpr ⟨fun member => ?_, list.keys⟩
    rcases List.mem_map.mp member with ⟨other, among, equal⟩
    exact fresh other among equal

theorem replaceData (list : ChainList chain (before ++ entry :: after) part) {entry' : Entry}
    (body : entry'.body = entry.body)
    (replaced : ListPart (headOffset chain) (before ++ entry' :: after)
      (some (.table chain)) part') :
    ChainList chain (before ++ entry' :: after) part' where
  list := replaced
  hashes := by
    intro other member
    rcases List.mem_append.mp member with left | right
    · exact list.hashes other (List.mem_append_left _ left)
    · rcases List.mem_cons.mp right with rfl | right
      · rw [body]
        exact list.hashes entry (List.mem_append_right _ List.mem_cons_self)
      · exact list.hashes other (List.mem_append_right _ (List.mem_cons_of_mem _ right))
  keys := by
    have keys := list.keys
    rw [List.map_append, List.map_cons] at keys ⊢
    rwa [body]

end ChainList

namespace Tabulates

variable {entries before after : List Entry} {entry : Entry} {table : Table}

theorem absent (tabulates : Tabulates entries table) {key : Bytes}
    (notThere : ∀ entry ∈ entries, entry.body.key ≠ key) : table key = none := by
  by_contra there
  rcases tabulates.covered key there with ⟨entry, member, equal⟩
  exact notThere entry member equal

theorem remove (tabulates : Tabulates (before ++ entry :: after) table)
    (keys : ((before ++ entry :: after).map fun entry => entry.body.key).Nodup) :
    Tabulates (before ++ after) (Function.update table entry.body.key none) where
  found := by
    intro other member
    rw [Function.update_of_ne (ListPart.not_mem_map keys other member)]
    exact tabulates.found other (mem_of_mem_remove member)
  covered := by
    intro key there
    by_cases same : key = entry.body.key
    · rw [same, Function.update_self] at there
      exact absurd rfl there
    · rw [Function.update_of_ne same] at there
      rcases tabulates.covered key there with ⟨other, member, equal⟩
      refine ⟨other, ?_, equal⟩
      rcases List.mem_append.mp member with left | right
      · exact List.mem_append_left _ left
      · rcases List.mem_cons.mp right with isEntry | right
        · exact absurd (equal.symm.trans (congrArg (fun e => e.body.key) isEntry)) same
        · exact List.mem_append_right _ right

theorem push (tabulates : Tabulates entries table)
    (fresh : ∀ other ∈ entries, other.body.key ≠ entry.body.key) :
    Tabulates (entry :: entries)
      (Function.update table entry.body.key (some entry.data.1)) where
  found := by
    intro other member
    rcases List.mem_cons.mp member with rfl | among
    · exact Function.update_self _ _ _
    · rw [Function.update_of_ne (fresh other among)]
      exact tabulates.found other among
  covered := by
    intro key there
    by_cases same : key = entry.body.key
    · exact ⟨entry, List.mem_cons_self, same.symm⟩
    · rw [Function.update_of_ne same] at there
      rcases tabulates.covered key there with ⟨other, member, equal⟩
      exact ⟨other, List.mem_cons_of_mem _ member, equal⟩

theorem replaceData (tabulates : Tabulates (before ++ entry :: after) table)
    (keys : ((before ++ entry :: after).map fun entry => entry.body.key).Nodup)
    {entry' : Entry} (body : entry'.body = entry.body) :
    Tabulates (before ++ entry' :: after)
      (Function.update table entry.body.key (some entry'.data.1)) where
  found := by
    intro other member
    by_cases isNew : other = entry'
    · rw [isNew, body, Function.update_self]
    · have among : other ∈ before ++ after := by
        rcases List.mem_append.mp member with left | right
        · exact List.mem_append_left _ left
        · rcases List.mem_cons.mp right with isEntry | right
          · exact absurd isEntry isNew
          · exact List.mem_append_right _ right
      rw [Function.update_of_ne (ListPart.not_mem_map keys other among)]
      exact tabulates.found other (mem_of_mem_remove among)
  covered := by
    intro key there
    by_cases same : key = entry.body.key
    · exact ⟨entry', List.mem_append_right _ List.mem_cons_self, by rw [body, same]⟩
    · rw [Function.update_of_ne same] at there
      rcases tabulates.covered key there with ⟨other, member, equal⟩
      rcases List.mem_append.mp member with left | right
      · exact ⟨other, List.mem_append_left _ left, equal⟩
      · rcases List.mem_cons.mp right with isEntry | right
        · rw [isEntry] at equal
          exact absurd equal.symm same
        · exact ⟨other, List.mem_append_right _ (List.mem_cons_of_mem _ right), equal⟩

end Tabulates

end

end Apue.Database
