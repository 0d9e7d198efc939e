import Apue.Database.Limits

/-! # Records that are used again

`db_store` puts a new record in the place of the first blank one that has its sizes, and
appends it to the files where there is none.
-/

namespace Apue.Database

open Apue.Foundation Ascii

/-- The records on the free list of the files. -/
def FreeList (state : State Unit) (blanks : List Entry) : Prop :=
  ∃ disk : Disk, state.files = disk.files ∧ DiskList disk FREE_OFF blanks

/-- The state that a run leaves, also when the process is ended. -/
def final {Result : Type} :
    Except (Failure × State Unit) ((Result × DB) × State Unit) → State Unit
  | .ok outcome => outcome.2
  | .error stop => stop.2

/-! ## The free list without one of its records -/

section Unlink

variable {disk : Disk} {head : Nat} {front back : List Entry} {entry : Entry}

theorem DiskList.nodup {entries : List Entry} (list : DiskList disk head entries) :
    (head :: entries.map Entry.offset).Nodup := by
  apply list.linked.nodup
  intro cell member
  rcases List.mem_map.mp member with ⟨other, _, rfl⟩
  exact Nat.ne_of_gt (Nat.lt_of_le_of_lt (Nat.zero_le _) other.behind_heads)

/-- The field that points to a record is given the pointer of the record. -/
theorem DiskList.unlink (list : DiskList disk head (front ++ entry :: back)) :
    ∃ (item : IndexItem) (next : Pointer),
      disk.item (lastField head (front.map Entry.offset)) = some item ∧
      item.pointer = some entry.offset ∧ next.1 = firstCell (back.map Entry.offset) ∧
      DiskList (disk.setItem (lastField head (front.map Entry.offset)) (item.setPointer next)) head
        (front ++ back) := by
  have linked := list.linked
  rw [List.map_append, List.map_cons] at linked
  have distinct := list.nodup
  rw [List.map_append, List.map_cons] at distinct
  rcases Option.bind_eq_some_iff.mp linked.behind.first with ⟨item, found, points⟩
  rcases list.record entry (List.mem_append_right _ List.mem_cons_self) with ⟨next, record⟩
  have isNext := list.next record
  refine ⟨item, next, found, points, isNext, ?_⟩
  have items := Disk.item_setItem found (item.encode_setPointer_length next)
  have kept : ∀ other ∈ front ++ back, other ∈ front ++ entry :: back := by
    intro other member
    rcases List.mem_append.mp member with inFront | inBack
    · exact List.mem_append_left _ inFront
    · exact List.mem_append_right _ (List.mem_cons_of_mem _ inBack)
  constructor
  case linked =>
    rw [List.map_append]
    apply linked.unlink distinct
    · rw [items, if_pos rfl, Option.bind_some, IndexItem.setPointer_pointer points, isNext]
    · intro number _ different
      rw [items, if_neg different]
  case record =>
    intro other member
    rcases list.record other (kept other member) with ⟨pointer, isRecord⟩
    by_cases isLast : other.offset = lastField head (front.map Entry.offset)
    · rw [isLast, found] at isRecord
      cases isRecord
      rw [items, if_pos isLast]
      exact ⟨next, rfl⟩
    · rw [items, if_neg isLast]
      exact ⟨pointer, isRecord⟩
  case extent => exact fun other member => list.extent other (kept other member)
  case length_le =>
    have count := list.length_le
    rw [List.length_append, List.length_cons] at count
    rw [List.length_append]
    omega

end Unlink

/-! ## `_db_findfree` -/

/-- The first record of the free list that has the sizes is between `front` and `back`. -/
structure FirstFit (keylen datlen : Nat) (blanks front : List Entry) (entry : Entry)
    (back : List Entry) : Prop where
  split : blanks = front ++ entry :: back
  earlier : ∀ other ∈ front, ¬ other.HasSizes keylen datlen
  fits : entry.HasSizes keylen datlen

/-- The structure is at the record, and in the files only the pointer to it has changed. -/
structure Unlinked (front : List Entry) (entry : Entry) (back : List Entry)
    (before : State Unit) (db : DB) (after : State Unit) : Prop where
  located : db.At entry (firstCell (back.map Entry.offset))
  dat : after.files .dat = before.files .dat
  idx : after.files .idx = pwrite (before.files .idx) (lastField FREE_OFF (front.map Entry.offset))
    (encodePointer (firstCell (back.map Entry.offset)))
  length : (after.files .idx).length = (before.files .idx).length
  list : FreeList after (front ++ back)

section Findfree

variable {state : State Unit} {blanks : List Entry} {keylen datlen : Nat}

theorem findfree_finds (free : FreeList state blanks)
    (some : ∃ entry ∈ blanks, entry.HasSizes keylen datlen) (db : DB) :
    Alone (fun (rc : Int) db' after => rc = 0 ∧ db'.chainoff = db.chainoff ∧
      ∃ front entry back, FirstFit keylen datlen blanks front entry back ∧
        Unlinked front entry back state db' after) (dbFindfree keylen datlen) db state := by
  rcases free with ⟨disk, files, list⟩
  apply alone_findfree files list
  · intro db' after _ _ noneFits
    rcases some with ⟨entry, member, fits⟩
    exact absurd fits (noneFits entry member)
  · intro db' after front entry back split earlier fits kept located written
    subst split
    rcases list.unlink with ⟨item, next, found, points, isNext, unlinked⟩
    have index : state.files .idx = disk.indexFile := congrFun files .idx
    have same : after.files = (disk.setItem (lastField FREE_OFF (front.map Entry.offset))
        (item.setPointer next)).files := by
      rw [written, ← isNext, index, files]
      exact update_files_idx (Disk.pwrite_pointer found points next) rfl
    refine ⟨rfl, kept, front, entry, back, ⟨rfl, earlier, fits⟩, located, ?_, ?_, ?_, _, same,
      unlinked⟩
    · rw [written, Function.update_of_ne (by decide)]
    · rw [written, Function.update_self]
    · rw [same, index]
      exact Disk.indexFile_setItem_length found (item.encode_setPointer_length next)

theorem findfree_misses (free : FreeList state blanks)
    (noneFits : ∀ entry ∈ blanks, ¬ entry.HasSizes keylen datlen) (db : DB) :
    Alone (fun (rc : Int) db' after => rc = -1 ∧ db'.chainoff = db.chainoff ∧
      after.files = state.files) (dbFindfree keylen datlen) db state := by
  rcases free with ⟨disk, files, list⟩
  apply alone_findfree files list
  · exact fun db' after kept same _ => ⟨rfl, kept, same⟩
  · intro db' after front entry back split _ fits _ _ _
    apply absurd fits (noneFits entry _)
    rw [split]
    exact List.mem_append_right _ List.mem_cons_self

end Findfree

/-! ## `db_store` with a new key -/

section Final

variable {Result Next : Type} {db : DB} {state : State Unit} {function : Library Result}
  {rest : Result → Library Next} {post : State Unit → Prop}

theorem final_bind (first : Alone (fun result db' after =>
      post (final (runAlone (rest result) db' after))) function db state) :
    post (final (runAlone (function >>= rest) db state)) := by
  rcases first with ⟨result, db', after, ran, holds⟩
  rw [runAlone_then ran]
  exact holds

/-- What the first part leaves is kept by the second, which may not be reached. -/
theorem final_then (first : post (final (runAlone function db state)))
    (kept : ∀ result db' between, post between → post (final (runAlone (rest result) db' between))) :
    post (final (runAlone (function >>= rest) db state)) := by
  rw [runAlone_bind]
  cases ran : runAlone function db state with
  | ok outcome =>
      rw [ran] at first
      exact kept outcome.1.1 outcome.1.2 outcome.2 first
  | error stop =>
      rw [ran] at first
      exact first

end Final

/-- The data is at the end of the data file and a record for it at the end of the index file. -/
structure Appends (key data : CString) (before after : State Unit) : Prop where
  dat : after.files .dat = before.files .dat ++ encodeData data
  idx : ∃ (front : Bytes) (pointer : Pointer), front.length = (before.files .idx).length ∧
    after.files .idx =
      front ++ recordBytes pointer key.1 (before.files .dat).length (data.1.length + 1)

/-- Neither file grows. -/
structure SameLengths (before after : State Unit) : Prop where
  dat : (after.files .dat).length = (before.files .dat).length
  idx : (after.files .idx).length = (before.files .idx).length

theorem Appends.not_sameLengths {key data : CString} {before after : State Unit}
    (appends : Appends key data before after) : ¬ SameLengths before after := by
  intro same
  have length := same.dat
  rw [appends.dat, List.length_append, encodeData_length] at length
  omega

theorem pwrite_append {front back text : Bytes} {offset : Nat}
    (inside : offset + text.length ≤ front.length) :
    pwrite (front ++ back) offset text = pwrite front offset text ++ back := by
  have noHole : offset - (front ++ back).length = offset - front.length := by
    rw [List.length_append]
    omega
  rw [pwrite, pwrite, noHole, List.take_append_of_le_length (by omega),
    List.drop_append_of_le_length inside]
  simp only [List.append_assoc]

section Store

variable {disk : Disk} {table : Table} {db : DB} {state : State Unit} {key data : CString}
  {flag : Int} {pointer : Pointer} {chainoff : Nat} {blanks : List Entry}

theorem storeAppend_appends (isChain : db.chainoff = chainoff)
    (inside : chainoff + PTR_SZ ≤ (state.files .idx).length)
    (fits : TextFits key.1 (state.files .dat).length (data.1.length + 1)) :
    Appends key data state (final (runAlone (storeAppend key.1 data.1 pointer.1) db state)) := by
  unfold storeAppend
  apply final_bind
  apply alone_writedat_append
  intro db' between datoff datlen kept files
  have dat : between.files .dat = state.files .dat ++ encodeData data := by
    rw [files, Function.update_self]
    exact pwrite_end _ _
  have idx : between.files .idx = state.files .idx := by
    rw [files, Function.update_of_ne (by decide)]
  apply final_bind
  apply alone_writeidx .append datoff datlen fits
  intro db'' last idxoff kept' _ files'
  have dat' : last.files .dat = state.files .dat ++ encodeData data := by
    rw [files', Function.update_of_ne (by decide), dat]
  have idx' : last.files .idx = state.files .idx ++
      recordBytes pointer key.1 (state.files .dat).length (data.1.length + 1) := by
    rw [files', Function.update_self, idx]
    exact pwrite_end _ _
  change Appends key data state (final (runAlone (dbWriteptr db''.chainoff db''.idxoff) db'' last))
  rw [kept', kept, isChain, idxoff, writeptr_run]
  split
  · exact ⟨dat', _, pointer, rfl, idx'⟩
  · rename_i near
    have pointerSize : (padLeft PTR_SZ (printInt ((between.files .idx).length : Int))).length =
        PTR_SZ := by
      rw [printInt_natCast]
      exact encodePointer_length ⟨_, Nat.le_of_not_lt near⟩
    refine ⟨dat', pwrite (state.files .idx) chainoff
      (padLeft PTR_SZ (printInt ((between.files .idx).length : Int))), pointer, ?_, ?_⟩
    · rw [length_pwrite, pointerSize]
      exact Nat.max_eq_left inside
    · change pwrite (last.files .idx) chainoff _ = _
      rw [idx']
      apply pwrite_append
      rw [pointerSize]
      exact inside

/-- Behind the search for a new key comes the search for a free record. -/
theorem store_absent_run (contents : Contents disk table) (files : state.files = disk.files)
    (absent : table key.1 = none) (fits : DataFits data.1)
    (inserts : flag = DB_INSERT ∨ flag = DB_STORE) (db : DB) :
    ∃ (there : DB) (pointer : Pointer), there.chainoff = headOffset (chainOf key.1) ∧
      headOffset (chainOf key.1) + PTR_SZ ≤ (state.files .idx).length ∧
      runAlone (dbStore key.1 data.1 flag) db state =
        runAlone ((do
          let found ← dbFindfree key.1.length (data.1.length + 1)
          if found < 0 then
            storeAppend key.1 data.1 pointer.1
          else
            storeReuse key.1 data.1 pointer.1
          return 0) >>= fun rc => do
            perform (.unlock .idx (← get).chainoff.toNat 1)
            return rc) there (withKeyLocked state key.1 .write) := by
  have known : ¬ (flag ≠ DB_INSERT ∧ flag ≠ DB_REPLACE ∧ flag ≠ DB_STORE) := by
    rcases inserts with rfl | rfl <;> decide
  have notReplace : flag ≠ DB_REPLACE := by
    rcases inserts with rfl | rfl <;> decide
  have size : ¬ (data.1.length + 1 < DATLEN_MIN ∨ data.1.length + 1 > DATLEN_MAX) := by
    rw [DataFits] at fits
    omega
  rcases @alone_search disk table db state disk contents contents.list files key.1 true with
    ⟨found, there, locked, isFound, searched⟩
  have isAbsent : found < 0 := by
    rcases searched.outcome with ⟨rfl, _⟩ | ⟨_, entry, member, _, isKey, _⟩
    · decide
    · cases absent.symm.trans (contents.table_eq_some.mpr ⟨entry, member, isKey, rfl⟩)
  rcases (contents.list (chainOf key.1)).first with ⟨item, pointer, first, linked⟩
  have read : Alone (fun result db' after => result = (pointer.1 : Int) ∧
      db'.chainoff = there.chainoff ∧ after = withKeyLocked state key.1 .write)
      (dbReadptr (headOffset (chainOf key.1))) there (withKeyLocked state key.1 .write) := by
    apply alone_readptr
    · exact files
    · exact first
    · exact linked
    exact ⟨rfl, rfl, rfl⟩
  rcases read with ⟨_, db', _, ran, rfl, kept, rfl⟩
  refine ⟨db', pointer, kept.trans searched.chainoff, ?_, ?_⟩
  · have within := Disk.item_within first
    have index : state.files .idx = disk.indexFile := congrFun files .idx
    have least := item.encode_pointer_le linked
    rw [index]
    omega
  unfold dbStore
  rw [if_neg known]
  simp only [size, if_false]
  rw [runAlone_then isFound, searched.locked]
  change runAlone (if found < 0 then storeAbsent key.1 data.1 flag >>= _ else _) there
    (withKeyLocked state key.1 .write) = _
  rw [if_pos isAbsent, storeAbsent, if_neg notReplace, runAlone_bind]
  have got : runAlone get there (withKeyLocked state key.1 .write) =
      .ok ((there, there), withKeyLocked state key.1 .write) := rfl
  rw [← searched.chainoff] at ran
  rw [runAlone_then got, runAlone_then ran]
  exact (runAlone_bind _ _).symm

theorem store_appends (contents : Contents disk table) (files : state.files = disk.files)
    (absent : table key.1 = none) (fits : DataFits data.1)
    (inserts : flag = DB_INSERT ∨ flag = DB_STORE) (free : FreeList state blanks)
    (noneFits : ∀ entry ∈ blanks, ¬ entry.HasSizes key.1.length (data.1.length + 1))
    (textFits : TextFits key.1 (state.files .dat).length (data.1.length + 1)) (db : DB) :
    Appends key data state (final (runAlone (dbStore key.1 data.1 flag) db state)) := by
  rcases store_absent_run contents files absent fits inserts db with
    ⟨there, pointer, chainoff, inside, ran⟩
  rw [ran]
  apply final_then
  · apply final_bind
    apply (findfree_misses _ noneFits _).mono
    · rintro _ db' between ⟨rfl, kept, same⟩
      rw [if_pos (by decide)]
      have isChain := kept.trans chainoff
      have sameIndex : between.files .idx = state.files .idx := congrFun same .idx
      have sameData : between.files .dat = state.files .dat := congrFun same .dat
      rw [← sameIndex] at inside
      rw [← sameData] at textFits
      have appends : Appends key data between
          (final (runAlone (storeAppend key.1 data.1 pointer.1) db' between)) :=
        storeAppend_appends isChain inside textFits
      apply final_then
      · rcases appends with ⟨dat, front, newPointer, length, idx⟩
        rw [sameData] at dat idx
        rw [sameIndex] at length
        exact ⟨dat, front, newPointer, length, idx⟩
      · exact fun _ _ _ appended => appended
    · exact free
  · exact fun _ _ _ appended => ⟨appended.dat, appended.idx⟩

theorem store_reuses (contents : Contents disk table) (files : state.files = disk.files)
    (absent : table key.1 = none) (fits : DataFits data.1)
    (inserts : flag = DB_INSERT ∨ flag = DB_STORE) (free : FreeList state blanks)
    (some : ∃ entry ∈ blanks, entry.HasSizes key.1.length (data.1.length + 1)) (db : DB) :
    Alone (fun (rc : Int) _ after => rc = 0 ∧ SameLengths state after)
      (dbStore key.1 data.1 flag) db state := by
  rcases store_absent_run contents files absent fits inserts db with
    ⟨there, pointer, chainoff, inside, ran⟩
  rw [Alone, ran]
  apply alone_bind
  apply alone_bind
  apply (findfree_finds _ some _).mono
  · rintro _ db' between ⟨rfl, kept, front, entry, back, first, unlinked⟩
    rw [if_neg (by decide)]
    apply alone_bind
    have isChain := kept.trans chainoff
    apply (storeReuse_returns unlinked.located isChain first.fits.1 first.fits.2).mono
    rintro _ db'' after ⟨_, dat, idx⟩
    apply alone_pure
    apply alone_bind
    apply alone_get
    apply alone_bind
    apply alone_unlock
    apply alone_pure
    rcases free with ⟨blankDisk, blankFiles, list⟩
    have member : entry ∈ blanks := by
      rw [first.split]
      exact List.mem_append_right _ List.mem_cons_self
    rcases list.record entry member with ⟨stored, record⟩
    have recordInside := Disk.item_within record
    have dataInside := Disk.data_within (list.extent entry member)
    have index : state.files .idx = blankDisk.indexFile := congrFun blankFiles .idx
    have dataFile : state.files .dat = blankDisk.dataFile := congrFun blankFiles .dat
    rw [encode_record_length, ← index] at recordInside
    rw [encodeData_length, ← dataFile, ← entry.datlen_eq, first.fits.2] at dataInside
    refine ⟨rfl, ?_, ?_⟩
    · change (after.files .dat).length = _
      rw [dat, unlinked.dat]
      exact Nat.max_eq_left dataInside
    · change (after.files .idx).length = _
      have sameLength : (between.files .idx).length = (state.files .idx).length := unlinked.length
      rw [idx, sameLength]
      omega
  · exact free

end Store

/-! ## After any calls -/

/-- What `db_store` does with a new key. A record that has to be appended must have a text that
fits. -/
structure StoresNew (key data : CString) (flag : Int) (state : State Unit) (blanks : List Entry)
    (db : DB) : Prop where
  appends_iff : ((∀ entry ∈ blanks, ¬ entry.HasSizes key.1.length (data.1.length + 1)) →
      TextFits key.1 (state.files .dat).length (data.1.length + 1)) →
    (Appends key data state (final (runAlone (dbStore key.1 data.1 flag) db state)) ↔
      ∀ entry ∈ blanks, ¬ entry.HasSizes key.1.length (data.1.length + 1))
  reuses : (∃ entry ∈ blanks, entry.HasSizes key.1.length (data.1.length + 1)) →
    Alone (fun (rc : Int) _ after => rc = 0 ∧ SameLengths state after)
      (dbStore key.1 data.1 flag) db state
  unlinks : (∃ entry ∈ blanks, entry.HasSizes key.1.length (data.1.length + 1)) →
    ∀ (there : DB) (between : State Unit), between.files = state.files →
      Alone (fun (rc : Int) db' after => rc = 0 ∧ db'.chainoff = there.chainoff ∧
        ∃ front entry back, FirstFit key.1.length (data.1.length + 1) blanks front entry back ∧
          Unlinked front entry back between db' after)
        (dbFindfree key.1.length (data.1.length + 1)) there between

section Session

variable {calls : List Call} {idx dat : Bytes} {returns : List Return} {db : DB}
  {last : State Unit} {key data : CString} {flag : Int}

/-- After any calls a new record is appended to the files exactly when no record on the free list
has its sizes, and takes the place of the first one that has them otherwise. -/
theorem store_new_of_session (sound : ∀ call ∈ calls, call.Sound)
    (ran : runSession calls idx dat = .ok ((returns, db), last))
    (absent : AtomicObject.finalObject applyCall calls emptyTable key.1 = none)
    (fits : DataFits data.1) (inserts : flag = DB_INSERT ∨ flag = DB_STORE) :
    (∃ blanks, FreeList last blanks) ∧
      ∀ blanks, FreeList last blanks → ∀ handle, StoresNew key data flag last blanks handle := by
  rcases runSession_ends sound ran with ⟨_, ghost, valid, idle, object⟩
  rcases valid.contents (resting_of_idle idle) with ⟨contents⟩
  rw [object] at contents
  refine ⟨?_, fun blanks free handle => ?_⟩
  · rcases valid.freeList (resting_of_idle idle) with ⟨blanks, free⟩
    exact ⟨blanks, ghost.disk, valid.files, free⟩
  · constructor
    case appends_iff =>
      intro textFits
      constructor
      · intro appends entry member hasSizes
        rcases store_reuses contents valid.files absent fits inserts free ⟨entry, member, hasSizes⟩
          handle with ⟨_, _, after, ranStore, _, same⟩
        rw [ranStore] at appends
        exact appends.not_sameLengths same
      · intro noneFits
        exact store_appends contents valid.files absent fits inserts free noneFits
          (textFits noneFits) handle
    case reuses =>
      exact fun some => store_reuses contents valid.files absent fits inserts free some handle
    case unlinks =>
      intro some there between same
      have sameFree : FreeList between blanks := by
        rcases free with ⟨disk, files, list⟩
        exact ⟨disk, same.trans files, list⟩
      exact findfree_finds sameFree some there

end Session

/-- A record is stored and deleted, and another key of its length is stored. -/
theorem store_new_of_session_store_and_delete : ∃ outcome last,
    runSession storeAndDelete [] [] = .ok (outcome, last) ∧ (∃ blanks, FreeList last blanks) ∧
      ∀ blanks, FreeList last blanks → ∀ handle,
        StoresNew ⟨[99], noNul_c⟩ shortData DB_INSERT last blanks handle := by
  rcases storeAndDelete_ends with ⟨⟨⟨returns, db⟩, last⟩, ran⟩
  refine ⟨_, _, ran, store_new_of_session (fun call member =>
    (storeAndDelete_noSeparator call member).sound) ran ?_ ?_ (Or.inl rfl)⟩
  · decide
  · exact ⟨by decide, by decide⟩

theorem Appends.index_ne {key data : CString} {before after : State Unit}
    (appends : Appends key data before after) : after.files .idx ≠ before.files .idx := by
  rcases appends.idx with ⟨front, pointer, length, whole⟩
  intro same
  have lengths := congrArg List.length same
  rw [whole, List.length_append, length, recordBytes, List.length_append, List.length_append,
    encodePointer_length, PTR_SZ] at lengths
  omega

def aKey : CString := ⟨[97], noNul_a⟩

/-- A key that no index record has room for. -/
def tooLongKey : CString := ⟨List.replicate 1020 97, fun byte member => by
  rw [List.eq_of_mem_replicate member]
  decide⟩

def tooLongData : CString := ⟨List.replicate 1024 98, fun byte member => by
  rw [List.eq_of_mem_replicate member]
  decide⟩

/-- The flag, the data and the key for which nothing is appended. -/
def refused : List (CString × CString × Int) :=
  [(aKey, shortData, DB_REPLACE), (aKey, tooLongData, DB_INSERT), (tooLongKey, shortData, DB_INSERT)]

theorem refused_index : ∀ request ∈ refused,
    (final (runAlone (dbStore request.1.1 request.2.1.1 request.2.2) openedDB newState)).files .idx =
      (newState : State Unit).files .idx := by
  decide +kernel

/-- The free list of a new database is empty, but nothing is appended for a flag that asks for a
record to replace, for data that is too long, and for a key that is too long. -/
theorem store_refused_not_appends : ∃ outcome last,
    runSession [] [] [] = .ok (outcome, last) ∧ FreeList last [] ∧
      ∀ request ∈ refused,
        ¬ (Appends request.1 request.2.1 last
            (final (runAlone (dbStore request.1.1 request.2.1.1 request.2.2) outcome.2 last)) ↔
          ∀ entry ∈ ([] : List Entry),
            ¬ entry.HasSizes request.1.1.length (request.2.1.1.length + 1)) := by
  have emptyList : DiskList newDisk FREE_OFF [] := by
    constructor
    case linked =>
      have head := newDisk_item_field (Nat.succ_pos NHASH_DEF)
      change (newDisk.item 0).bind IndexItem.pointer = some 0
      rw [Nat.zero_mul] at head
      rw [head]
      rfl
    case record => exact nofun
    case extent => exact nofun
    case length_le => exact Nat.zero_le _
  have files : (newState : State Unit).files = newDisk.files := by
    funext file
    cases file with
    | idx => exact newDisk_indexFile.symm
    | dat => rfl
  refine ⟨([], openedDB), newState, runSession_eq [] [] [], ⟨newDisk, files, emptyList⟩, ?_⟩
  intro request member iff
  exact (iff.mpr nofun).index_ne (refused_index request member)

end Apue.Database
