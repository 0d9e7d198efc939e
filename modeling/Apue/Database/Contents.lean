import Apue.Database.Alone

/-! # What the files of a database hold

The map that two files hold when no call is under way, told by the items of the
files alone: the hash chains have the entries of the map, and every other record
is blank.
-/

namespace Apue.Database

open Apue.Foundation Ascii

/-- `db_nextrec` takes a record with such a key for a deleted one. -/
def isBlank (key : Bytes) : Bool := key.all (· == SPACE)

structure Contents (disk : Disk) (table : Table) where
  chain : Chain → List Entry
  list : ∀ number, DiskList disk (headOffset number) (chain number)
  hashes : ∀ number, ∀ entry ∈ chain number, chainOf entry.body.key = number
  keys : ∀ number, ((chain number).map fun entry => entry.body.key).Nodup
  tabulates : ∀ number, Tabulates (chain number) (tableOn table number)
  apart : ∀ number other entry entry', entry ∈ chain number → entry' ∈ chain other →
    entry.body.datoff = entry'.body.datoff → entry.body = entry'.body
  shaped : disk.WellShaped
  near : ∀ offset pointer body, disk.item offset = some (.record pointer body) → offset ≤ PTR_MAX
  complete : ∀ offset pointer body, disk.item offset = some (.record pointer body) →
    isBlank body.key = true ∨
      ∃ number, ∃ entry ∈ chain number, entry.offset = offset ∧ entry.body = body

theorem isBlank_iff {key : Bytes} : isBlank key = true ↔ ∀ byte ∈ key, byte = SPACE := by
  simp [isBlank]

section

variable {disk : Disk} {table : Table} {key data : Bytes}

/-- The files of a database at rest hold its map. -/
theorem Valid.contents {ghost : Ghost Unit} {state : State Unit} (valid : Valid ghost state)
    (resting : ghost.Resting) : Nonempty (Contents ghost.disk ghost.object.object) := by
  rcases resting.lists valid with ⟨lists⟩
  refine ⟨
    { chain := fun number => lists.entries (.chain number)
      list := ?_
      hashes := fun number => (lists.chain number).hashes
      keys := fun number => (lists.chain number).keys
      tabulates := lists.tabulates
      apart := fun number other entry entry' member member' same =>
        congrArg Entry.body (lists.same_of_datoff member member' same).2
      shaped := valid.shaped
      near := ?_
      complete := ?_ }⟩
  · intro number
    exact
      { linked := (lists.chain number).list.linked.mono fun offset pointer stored =>
          valid.of_part stored
        record := fun entry member => lists.item_of_entry valid member
        extent := fun entry member => lists.data_of_entry valid member
        length_le := (lists.chain number).list.length_le }
  · intro offset pointer body found
    rcases lists.entry_of_item valid resting found with ⟨name, entry, member, rfl, _⟩
    exact entry.offset_le
  · intro offset pointer body found
    rcases lists.entry_of_item valid resting found with ⟨name, entry, member, rfl, rfl⟩
    cases name with
    | chain number => exact Or.inr ⟨number, entry, member, rfl, rfl⟩
    | free => exact Or.inl (isBlank_iff.mpr (lists.free.blank entry member))
    | idxEnd =>
        rw [lists.ends.1] at member
        cases member
    | datEnd =>
        rw [lists.ends.2] at member
        cases member

/-- A key is in the map when its hash chain has a record for it. -/
theorem Contents.table_eq_some (contents : Contents disk table) :
    table key = some data ↔
      ∃ entry ∈ contents.chain (chainOf key), entry.body.key = key ∧ entry.data.1 = data := by
  have here := contents.tabulates (chainOf key)
  constructor
  · intro present
    have stored : tableOn table (chainOf key) key = some data := by
      rw [tableOn_self, present]
    rcases here.covered key (by rw [stored]; simp) with ⟨entry, member, rfl⟩
    exact ⟨entry, member, rfl, Option.some.inj ((here.found entry member).symm.trans stored)⟩
  · rintro ⟨entry, member, rfl, rfl⟩
    have stored := here.found entry member
    rwa [tableOn_self] at stored

theorem Contents.absent (contents : Contents disk table)
    (missing : ∀ entry ∈ contents.chain (chainOf key), entry.body.key ≠ key) :
    table key = none := by
  have absent := (contents.tabulates (chainOf key)).absent missing
  rwa [tableOn_self] at absent

/-- The data of one record is replaced by other data of its length. -/
theorem Contents.setData (contents : Contents disk table) {entry : Entry}
    (member : entry ∈ contents.chain (chainOf entry.body.key)) {data : CString}
    (size : data.1.length = entry.data.1.length) :
    Nonempty (Contents (disk.setData entry.body.datoff data)
      (Function.update table entry.body.key (some data.1))) := by
  rcases List.append_of_mem member with ⟨before, after, split⟩
  have keys := contents.keys (chainOf entry.body.key)
  rw [split] at keys
  have there := (contents.list _).extent entry member
  let entry' : Entry :=
    { entry with
      data := data
      datlen_eq := by rw [entry.datlen_eq, size] }
  let chain := Function.update contents.chain (chainOf entry.body.key)
    (before ++ entry' :: after)
  have old : ∀ number, ∀ other ∈ chain number, other = entry' ∧ number = chainOf entry.body.key ∨
      other ∈ contents.chain number ∧ other.body.key ≠ entry.body.key := by
    intro number other among
    by_cases here : number = chainOf entry.body.key
    · subst here
      simp only [chain, Function.update_self] at among
      rcases List.mem_append.mp among with left | right
      · refine Or.inr ⟨?_, ListPart.not_mem_map keys other (List.mem_append_left _ left)⟩
        rw [split]
        exact List.mem_append_left _ left
      · rcases List.mem_cons.mp right with isEntry | right
        · exact Or.inl ⟨isEntry, rfl⟩
        · refine Or.inr ⟨?_, ListPart.not_mem_map keys other (List.mem_append_right _ right)⟩
          rw [split]
          exact List.mem_append_right _ (List.mem_cons_of_mem _ right)
    · simp only [chain, Function.update_of_ne here] at among
      refine Or.inr ⟨among, fun same => here ?_⟩
      rw [← contents.hashes number other among, same]
  have bodies : ∀ number, ∀ other ∈ chain number, ∃ first ∈ contents.chain number,
      first.offset = other.offset ∧ first.body = other.body := by
    intro number other among
    rcases old number other among with ⟨rfl, rfl⟩ | ⟨among', _⟩
    · exact ⟨entry, member, rfl, rfl⟩
    · exact ⟨other, among', rfl, rfl⟩
  have offsets : ∀ number, (chain number).map Entry.offset =
      (contents.chain number).map Entry.offset := by
    intro number
    by_cases here : number = chainOf entry.body.key
    · subst here
      simp only [chain, Function.update_self, split, List.map_append, List.map_cons, entry']
    · simp only [chain, Function.update_of_ne here]
  refine ⟨
    { chain := chain
      list := ?_
      hashes := ?_
      keys := ?_
      tabulates := ?_
      apart := ?_
      shaped := contents.shaped
      near := contents.near
      complete := ?_ }⟩
  · intro number
    have list := contents.list number
    exact
      { linked := by
          rw [offsets]
          exact list.linked
        record := by
          intro other among
          rcases bodies number other among with ⟨first, isFirst, offset, body⟩
          rw [← offset, ← body]
          exact list.record first isFirst
        extent := by
          intro other among
          rw [Disk.data_setData there size]
          rcases old number other among with ⟨rfl, _⟩ | ⟨among', different⟩
          · exact if_pos rfl
          · rw [if_neg, list.extent other among']
            intro same
            exact different (congrArg Body.key (contents.apart _ _ _ _ among' member same))
        length_le := by
          have lengths := congrArg List.length (offsets number)
          rw [List.length_map, List.length_map] at lengths
          rw [lengths]
          exact list.length_le }
  · intro number other among
    rcases bodies number other among with ⟨first, isFirst, _, body⟩
    rw [← body]
    exact contents.hashes number first isFirst
  · intro number
    by_cases here : number = chainOf entry.body.key
    · subst here
      simp only [chain, Function.update_self]
      rw [List.map_append, List.map_cons] at keys ⊢
      exact keys
    · simp only [chain, Function.update_of_ne here]
      exact contents.keys number
  · intro number
    rw [tableOn_update]
    by_cases here : number = chainOf entry.body.key
    · subst here
      have tabulates := contents.tabulates (chainOf entry.body.key)
      rw [split] at tabulates
      have sameBody : entry'.body = entry.body := rfl
      have replaced := tabulates.replaceData keys sameBody
      simp only [chain, Function.update_self, if_true]
      exact replaced
    · rw [if_neg (Ne.symm here)]
      simp only [chain, Function.update_of_ne here]
      exact contents.tabulates number
  · intro number number' other other' among among' same
    rcases bodies number other among with ⟨first, isFirst, _, body⟩
    rcases bodies number' other' among' with ⟨first', isFirst', _, body'⟩
    rw [← body, ← body'] at same ⊢
    exact contents.apart _ _ _ _ isFirst isFirst' same
  · intro offset pointer body found
    rcases contents.complete offset pointer body found with blank | ⟨number, other, among, rfl, rfl⟩
    · exact Or.inl blank
    · refine Or.inr ⟨number, ?_⟩
      by_cases isEntry : other = entry
      · subst isEntry
        have here := contents.hashes number other among
        subst here
        refine ⟨entry', ?_, rfl, rfl⟩
        simp only [chain, Function.update_self]
        exact List.mem_append_right _ List.mem_cons_self
      · refine ⟨other, ?_, rfl, rfl⟩
        by_cases here : number = chainOf entry.body.key
        · subst here
          simp only [chain, Function.update_self]
          rw [split] at among
          rcases List.mem_append.mp among with left | right
          · exact List.mem_append_left _ left
          · rcases List.mem_cons.mp right with equal | right
            · exact absurd equal isEntry
            · exact List.mem_append_right _ (List.mem_cons_of_mem _ right)
        · simp only [chain, Function.update_of_ne here]
          exact among

/-! ## Calls that only read -/

variable {db : DB} {state : State Unit}

/-- What a search of the library comes to. -/
structure Searched (contents : Contents disk table) (state : State Unit) (key : Bytes)
    (kind : LockKind) (found : Int) (db' : DB) (after : State Unit) : Prop where
  locked : after = withKeyLocked state key kind
  chainoff : db'.chainoff = headOffset (chainOf key)
  outcome : found = -1 ∧ table key = none ∨ found = 0 ∧
    ∃ entry ∈ contents.chain (chainOf key), ∃ next, entry.body.key = key ∧ db'.At entry next

variable {now : Disk}

/-- The search also goes on when the files have more than the records of the
lists. -/
theorem alone_search (contents : Contents disk table)
    (lists : ∀ number, DiskList now (headOffset number) (contents.chain number))
    (files : state.files = now.files) (key : Bytes) (writelock : Bool) :
    Alone (Searched contents state key (if writelock then .write else .read))
      (dbFindAndLock key writelock) db state := by
  apply alone_findAndLock files (lists (chainOf key))
  · intro db' chainoff missing
    exact ⟨rfl, chainoff, Or.inl ⟨rfl, contents.absent missing⟩⟩
  · intro db' entry next chainoff member same located
    exact ⟨rfl, chainoff, Or.inr ⟨rfl, entry, member, next, same, located⟩⟩

/-- `db_fetch` returns what the map has for the key, and leaves the file offset
of the index file where its search does. -/
theorem alone_fetch (contents : Contents disk table)
    (lists : ∀ number, DiskList now (headOffset number) (contents.chain number))
    (files : state.files = now.files) (unlocked : Unlocked state) (key : Bytes) :
    Alone (fun result db' after => result = table key ∧ after = state ∧
      ∃ found there locked, runAlone (dbFindAndLock key false) db state =
        .ok ((found, there), locked) ∧ db'.idxPosition = there.idxPosition)
      (dbFetch key) db state := by
  rcases alone_search contents lists files key false with ⟨found, there, locked, ran, searched⟩
  refine alone_bind ⟨found, there, locked, ran, ?_⟩
  rw [searched.locked] at ran ⊢
  have unlocks := DB.unlocks searched.chainoff
  rcases searched.outcome with ⟨rfl, absent⟩ | ⟨rfl, entry, member, next, same, located⟩
  · apply alone_bind
    apply alone_pure
    apply alone_bind
    apply alone_get
    rw [unlocks]
    apply alone_bind
    apply alone_unlock
    rw [unlock_withKeyLocked unlocked]
    exact alone_pure ⟨absent.symm, rfl, _, _, _, ran, rfl⟩
  · have present : table key = some entry.data.1 :=
      contents.table_eq_some.mpr ⟨entry, member, same, rfl⟩
    rw [if_neg (lt_irrefl (0 : Int))]
    apply alone_bind
    apply alone_readdat
    · exact files
    · exact (lists _).extent entry member
    · exact located.datoff
    · rw [located.datlen, entry.datlen_eq]
    intro position
    apply alone_bind
    apply alone_pure
    apply alone_bind
    apply alone_get
    rw [unlocks]
    apply alone_bind
    apply alone_unlock
    rw [unlock_withKeyLocked unlocked]
    exact alone_pure ⟨present.symm, rfl, _, _, _, ran, rfl⟩

end

end Apue.Database
