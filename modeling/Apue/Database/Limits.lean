import Apue.Database.Interleaved
import Apue.Database.RoundTrip

/-! # Calls that end the process at a limit

`db_store` ends the process when a length or an offset is out of its limits. What
it has written by then stays in the files.
-/

namespace Apue.Database

open Apue.Foundation Ascii

section Primitive

variable {Result Next : Type} {db : DB} {state : State Unit}

/-- A function that ends the process does so behind every part that returns. -/
theorem stopped_bind {function : Library Result} {rest : Result → Library Next}
    {post : Result → DB → State Unit → Prop} {stop : Failure × State Unit}
    (first : Alone post function db state)
    (stopped : runAlone (function >>= rest) db state = .error stop) :
    ∃ result db' after, post result db' after ∧ runAlone (rest result) db' after = .error stop := by
  rcases first with ⟨result, db', after, ran, holds⟩
  rw [runAlone_then ran] at stopped
  exact ⟨result, db', after, holds, stopped⟩

theorem bind_stopped {function : Library Result} {rest : Result → Library Next}
    {stop : Failure × State Unit}
    (first : Alone (fun result db' after => runAlone (rest result) db' after = .error stop)
      function db state) : runAlone (function >>= rest) db state = .error stop := by
  rcases first with ⟨result, db', after, ran, stopped⟩
  rw [runAlone_then ran]
  exact stopped

/-- The end of the process is in the first part when the second one returns. -/
theorem stopped_first {function : Library Result} {rest : Result → Library Next}
    {stop : Failure × State Unit}
    (returns : ∀ result db' after, ∃ outcome, runAlone (rest result) db' after = .ok outcome)
    (stopped : runAlone (function >>= rest) db state = .error stop) :
    runAlone function db state = .error stop := by
  rw [runAlone_bind] at stopped
  cases ran : runAlone function db state with
  | ok outcome =>
      rw [ran] at stopped
      rcases returns outcome.1.1 outcome.1.2 outcome.2 with ⟨last, ran'⟩
      cases ran'.symm.trans stopped
  | error other =>
      rw [ran] at stopped
      cases stopped
      rfl

theorem alone_writeDat {post : Unit → DB → State Unit → Prop} {text : Bytes}
    (continued : post () { db with datPosition := db.datPosition + text.length }
      (setFile state .dat (pwrite (state.files .dat) db.datPosition text))) :
    Alone post (writeDat text) db state :=
  ⟨(), _, _, rfl, continued⟩

theorem alone_open {post : Unit → DB → State Unit → Prop} {file : File}
    (continued : post () db state) : @Alone Unit post (perform (.open file false)) db state :=
  ⟨(), db, state, rfl, continued⟩

theorem writeptr_run (offset pointer : Nat) :
    runAlone (dbWriteptr offset pointer) db state =
      if PTR_MAX < pointer then .error (.writeptrPointer, state)
      else .ok (((), { db with idxPosition := offset + (padLeft PTR_SZ (printInt pointer)).length }),
        setFile state .idx (pwrite (state.files .idx) offset (padLeft PTR_SZ (printInt pointer)))) := by
  unfold dbWriteptr
  by_cases tooFar : PTR_MAX < pointer
  · have isLimit : (pointer : Int) < 0 ∨ (pointer : Int) > PTR_MAX := by omega
    rw [if_pos isLimit, if_pos tooFar]
    rfl
  · have inside : ¬ ((pointer : Int) < 0 ∨ (pointer : Int) > PTR_MAX) := by omega
    rw [if_neg inside, if_neg tooFar, runAlone_bind, runAlone, lseekIdx_natCast]
    rfl

theorem alone_writedat_append {post : Unit → DB → State Unit → Prop} {data : Bytes}
    (continued : ∀ (db' : DB) (after : State Unit), db'.datoff = ((state.files .dat).length : Nat) →
      db'.datlen = data.length + 1 → db'.chainoff = db.chainoff →
      after.files = Function.update state.files .dat
        (pwrite (state.files .dat) (state.files .dat).length (data ++ [NEWLINE])) →
      post () db' after) :
    Alone post (dbWritedat data .append) db state := by
  unfold dbWritedat
  apply alone_bind
  apply alone_lock
  apply alone_bind
  apply alone_size
  apply alone_bind
  apply alone_lseekDat
  apply alone_bind
  apply alone_modify
  apply alone_bind
  apply alone_modify
  apply alone_bind
  apply alone_writeDat
  apply alone_unlock
  apply continued
  · rfl
  · rfl
  · rfl
  · rfl

section Writeidx

variable {key : Bytes} {datoff datlen : Nat} {pointer : Pointer}

/-- A text that does not fit ends the process before anything is written. -/
theorem writeidx_unfit {whence : Whence} (isDatoff : db.datoff = datoff)
    (isDatlen : db.datlen = datlen) (unfit : ¬ TextFits key datoff datlen) :
    runAlone (dbWriteidx key whence pointer.1) db state = .error (.writeidxLength, state) := by
  have isLimit : (recordText key datoff datlen).length < IDXLEN_MIN ∨
      (recordText key datoff datlen).length > IDXLEN_MAX := by
    rw [TextFits] at unfit
    omega
  unfold dbWriteidx
  apply bind_stopped
  apply alone_modify
  simp only [pointer.in_range, if_false]
  apply bind_stopped
  apply alone_modify
  apply bind_stopped
  apply alone_get
  simp only [writeidx_text isDatoff isDatlen, isLimit, if_true]
  rfl

end Writeidx

end Primitive

section Append

variable {disk : Disk} {db : DB} {state after : State Unit} {key data : CString}
  {pointer : Pointer} {chainoff : Nat} {failure : Failure}

/-- The files that a new record leaves behind when its pointer is not written. -/
def Disk.withOrphan (disk : Disk) (pointer : Pointer) (body : Body) (data : CString) : Disk :=
  (disk.addData data).addItem (.record pointer body)

/-- Appending a record ends the process when its text does not fit, with its data
written, and when its offset does not fit in a pointer, with the record written. -/
theorem storeAppend_stopped (files : state.files = disk.files) (isChain : db.chainoff = chainoff)
    (noSep : ∀ byte ∈ key.1, byte ≠ SEP) (bounded : data.1.length + 1 ≤ DATLEN_MAX)
    (stopped : runAlone (storeAppend key.1 data.1 pointer.1) db state = .error (failure, after)) :
    (¬ TextFits key.1 disk.dataFile.length (data.1.length + 1) ∧
      after.files = (disk.addData data).files) ∨
    TextFits key.1 disk.dataFile.length (data.1.length + 1) ∧ ∃ body : Body, body.key = key.1 ∧
      body.datoff = disk.dataFile.length ∧ body.datlen = data.1.length + 1 ∧
        after.files = (disk.withOrphan pointer body data).files := by
  have size : (state.files .dat).length = disk.dataFile.length := by
    rw [files]
    rfl
  unfold storeAppend at stopped
  have written : Alone (fun _ db' between => db'.datoff = (disk.dataFile.length : Nat) ∧
      db'.datlen = data.1.length + 1 ∧ db'.chainoff = chainoff ∧
      between.files = (disk.addData data).files) (dbWritedat data.1 .append) db state := by
    apply alone_writedat_append
    intro db' between datoff datlen kept same
    rw [size] at datoff
    refine ⟨datoff, datlen, kept.trans isChain, same.trans ?_⟩
    rw [files]
    exact update_files_dat (Disk.pwrite_addData data) rfl
  rcases stopped_bind written stopped with ⟨_, db', between, ⟨datoff, datlen, kept, same⟩, stopped⟩
  by_cases fits : TextFits key.1 disk.dataFile.length (data.1.length + 1)
  · right
    let body : Body :=
      { key := key.1
        datoff := disk.dataFile.length
        datlen := data.1.length + 1
        noNul := key.2
        noSep := noSep
        datlen_pos := Nat.succ_pos _
        datlen_le := bounded
        length_ge := fits.1
        length_le := fits.2 }
    have appended : Alone (fun _ db'' last => db''.idxoff = ((between.files .idx).length : Nat) ∧
        db''.chainoff = chainoff ∧ last.files = (disk.withOrphan pointer body data).files)
        (dbWriteidx key.1 .append pointer.1) db' between := by
      apply alone_writeidx .append datoff datlen fits
      intro db'' last idxoff kept' _ same'
      refine ⟨idxoff, kept'.trans kept, same'.trans ?_⟩
      rw [same]
      exact update_files_idx (Disk.pwrite_addItem (.record pointer body)) rfl
    rcases stopped_bind appended stopped with ⟨_, db'', last, ⟨idxoff, kept', same'⟩, stopped⟩
    refine ⟨fits, body, rfl, rfl, rfl, ?_⟩
    change runAlone (dbWriteptr db''.chainoff db''.idxoff) db'' last = _ at stopped
    rw [kept', idxoff, writeptr_run] at stopped
    split at stopped
    · cases stopped
      exact same'
    · cases stopped
  · left
    rw [runAlone_bind, writeidx_unfit datoff datlen fits] at stopped
    cases stopped
    exact ⟨fits, same⟩

theorem recordText_length (key : Bytes) (datoff datlen : Nat) :
    (recordText key datoff datlen).length =
      key.length + (decimal datoff).length + (decimal datlen).length + 3 := by
  simp only [recordText, List.length_append, List.length_cons, List.length_nil]
  omega

/-- A record that takes the place of a blank one always fits. -/
theorem storeReuse_returns {entry : Entry} {next : Nat} (located : db.At entry next)
    (isChain : db.chainoff = chainoff) (keylen : entry.body.key.length = key.1.length)
    (datlen : entry.body.datlen = data.1.length + 1) :
    Alone (fun _ db' after => db'.chainoff = chainoff ∧
      (after.files .dat).length =
        max (state.files .dat).length (entry.body.datoff + (data.1.length + 1)) ∧
      (after.files .idx).length = max (max (state.files .idx).length
        (entry.offset + (PTR_SZ + IDXLEN_SZ + entry.body.text.length))) (chainoff + PTR_SZ))
      (storeReuse key.1 data.1 pointer.1) db state := by
  have size : (recordText key.1 entry.body.datoff (data.1.length + 1)).length =
      entry.body.text.length := by
    rw [Body.text, recordText_length, recordText_length, keylen, datlen]
  have fits : TextFits key.1 entry.body.datoff (data.1.length + 1) := by
    rw [TextFits, size]
    exact ⟨entry.body.length_ge, entry.body.length_le⟩
  unfold storeReuse
  apply alone_bind
  apply alone_get
  rw [located.datoff]
  apply alone_bind
  apply alone_writedat_set
  intro db' _ kept isDatoff isDatlen isOffset
  apply alone_bind
  apply alone_get
  rw [isOffset, located.idxoff]
  apply alone_bind
  apply alone_writeidx (.set entry.offset) isDatoff isDatlen fits
  intro db'' after isOffset' kept' _ files'
  apply alone_bind
  apply alone_get
  apply alone_bind
  apply alone_get
  have near : ¬ PTR_MAX < entry.offset := Nat.not_lt.mpr entry.offset_le
  rw [kept', kept, isChain, isOffset']
  have ran : runAlone (dbWriteptr chainoff entry.offset) db'' after = _ := writeptr_run _ _
  have pointerSize : (padLeft PTR_SZ (printInt (entry.offset : Int))).length = PTR_SZ := by
    rw [printInt_natCast]
    exact encodePointer_length ⟨entry.offset, entry.offset_le⟩
  rw [if_neg near] at ran
  refine ⟨(), _, _, ran, kept'.trans (kept.trans isChain), ?_, ?_⟩
  · change (after.files .dat).length = _
    rw [files']
    change (pwrite (state.files .dat) entry.body.datoff (encodeData data)).length = _
    rw [length_pwrite, encodeData_length]
  · change (pwrite (after.files .idx) chainoff (padLeft PTR_SZ (printInt entry.offset))).length = _
    rw [length_pwrite, pointerSize, files', Function.update_self, length_pwrite,
      recordBytes_length pointer fits, size]
    rfl

/-! ## The search for a blank record -/

/-- What `_db_findfree` compares. -/
def Entry.HasSizes (entry : Entry) (keylen datlen : Nat) : Prop :=
  entry.body.key.length = keylen ∧ entry.body.datlen = datlen

theorem alone_findSizes {post : Int × Int → DB → State Unit → Prop} {keylen datlen bound : Nat}
    {head : Nat} {before after : List Entry}
    (files : state.files = disk.files) (list : DiskList disk head (before ++ after))
    (enough : after.length < bound) (earlier : ∀ entry ∈ before, ¬ entry.HasSizes keylen datlen)
    (missing : ∀ (db' : DB) (saveoffset : Int), db'.chainoff = db.chainoff →
      (∀ entry ∈ before ++ after, ¬ entry.HasSizes keylen datlen) → post (0, saveoffset) db' state)
    (found : ∀ (db' : DB) (front : List Entry) (entry : Entry) (back : List Entry),
      before ++ after = front ++ entry :: back →
      (∀ other ∈ front, ¬ other.HasSizes keylen datlen) → entry.HasSizes keylen datlen →
      db'.chainoff = db.chainoff → db'.At entry (firstCell (back.map Entry.offset)) →
      post (entry.offset, lastField head (front.map Entry.offset)) db' state) :
    Alone post (findSizes keylen datlen bound (lastField head (before.map Entry.offset))
      (firstCell (after.map Entry.offset))) db state := by
  induction after generalizing before bound db with
  | nil =>
      cases bound with
      | zero => exact absurd enough (Nat.not_lt_zero _)
      | succ bound =>
          rw [List.append_nil] at missing
          exact alone_pure (missing db _ rfl earlier)
  | cons entry after hypothesis =>
      cases bound with
      | zero => exact absurd enough (Nat.not_lt_zero _)
      | succ bound =>
          have positive := Nat.lt_of_le_of_lt (Nat.zero_le _) entry.behind_heads
          have notEnd : ¬ ((entry.offset : Int) = 0) := by omega
          rcases list.record entry (List.mem_append_right _ List.mem_cons_self) with ⟨pointer, item⟩
          have next := list.next item
          rw [List.map_cons, firstCell_cons, findSizes, if_neg notEnd]
          apply alone_bind
          apply alone_readidx files item (Or.inl ⟨rfl, Nat.ne_of_gt positive⟩)
          apply alone_bind
          apply alone_get
          apply alone_bind
          apply alone_get
          rw [DB.atRecord_idxbuf, DB.atRecord_datlen]
          by_cases fits : entry.body.key.length = keylen ∧ entry.body.datlen = datlen
          · have located : (db.atRecord entry.offset pointer entry.body).At entry
                (firstCell (after.map Entry.offset)) := by
              rw [← next]
              exact DB.atRecord_at _
            rw [if_pos fits]
            exact alone_pure (found _ before entry after rfl earlier fits rfl located)
          · have whole : before ++ entry :: after = (before ++ [entry]) ++ after := by
              rw [List.append_assoc]
              rfl
            have last : lastField head ((before ++ [entry]).map Entry.offset) = entry.offset :=
              lastField_concat_offset
            rw [if_neg fits, next, ← last]
            rw [whole] at list missing found
            apply hypothesis list (Nat.lt_of_succ_lt_succ enough)
            · intro other among
              rcases List.mem_append.mp among with inside | isEntry
              · exact earlier other inside
              · rw [List.mem_singleton.mp isEntry]
                exact fits
            · exact missing
            · exact found

theorem alone_findfree {post : Int → DB → State Unit → Prop} {keylen datlen : Nat}
    {entries : List Entry} (files : state.files = disk.files)
    (list : DiskList disk FREE_OFF entries)
    (missing : ∀ (db' : DB) (after : State Unit), db'.chainoff = db.chainoff →
      after.files = state.files → (∀ entry ∈ entries, ¬ entry.HasSizes keylen datlen) →
      post (-1) db' after)
    (found : ∀ (db' : DB) (after : State Unit) (front : List Entry) (entry : Entry)
      (back : List Entry), entries = front ++ entry :: back →
      (∀ other ∈ front, ¬ other.HasSizes keylen datlen) → entry.HasSizes keylen datlen →
      db'.chainoff = db.chainoff → db'.At entry (firstCell (back.map Entry.offset)) →
      after.files = Function.update state.files .idx
        (pwrite (state.files .idx) (lastField FREE_OFF (front.map Entry.offset))
          (encodePointer (firstCell (back.map Entry.offset)))) →
      post 0 db' after) :
    Alone post (dbFindfree keylen datlen) db state := by
  have whole : DiskList disk FREE_OFF ([] ++ entries) := list
  rcases Option.bind_eq_some_iff.mp list.linked.first with ⟨item, isItem, linked⟩
  unfold dbFindfree
  apply alone_bind
  apply alone_lock
  apply alone_bind
  apply alone_readptr
  · exact files
  · exact isItem
  · exact linked
  apply alone_bind
  have start : ((FREE_OFF : Nat) : Int) =
      (lastField FREE_OFF (([] : List Entry).map Entry.offset) : Nat) := rfl
  rw [start]
  apply alone_findSizes
  · exact files
  · exact whole
  · exact Nat.lt_succ_of_le list.length_le
  · exact fun entry member => absurd member List.not_mem_nil
  · intro db' saveoffset kept noneFits
    apply alone_bind
    apply alone_pure
    apply alone_bind
    apply alone_unlock
    exact alone_pure (missing db' _ kept rfl noneFits)
  · intro db' front entry back split earlier fits kept located
    rw [List.nil_append] at split
    subst split
    have behind := Nat.lt_of_le_of_lt (Nat.zero_le _) entry.behind_heads
    have notEnd : ¬ ((entry.offset : Int) = 0) := by omega
    rcases list.record entry (List.mem_append_right _ List.mem_cons_self) with ⟨pointer, record⟩
    have next := list.next record
    have near : ¬ PTR_MAX < firstCell (back.map Entry.offset) := by
      rw [← next]
      exact Nat.not_lt.mpr pointer.2
    simp only [notEnd, if_false]
    apply alone_bind
    apply alone_get
    apply alone_bind
    rw [located.ptrval]
    have ran := @writeptr_run db' (setLocks state () .idx FREE_OFF 1 (some .write))
      (lastField FREE_OFF (front.map Entry.offset)) (firstCell (back.map Entry.offset))
    rw [if_neg near] at ran
    refine ⟨(), _, _, ran, ?_⟩
    apply alone_bind
    apply alone_pure
    apply alone_bind
    apply alone_unlock
    apply alone_pure
    let moved : DB := { db' with idxPosition := lastField FREE_OFF (front.map Entry.offset) +
      (padLeft PTR_SZ (printInt (firstCell (back.map Entry.offset)))).length }
    have relocated : moved.At entry (firstCell (back.map Entry.offset)) :=
      { idxbuf := located.idxbuf
        idxoff := located.idxoff
        datoff := located.datoff
        datlen := located.datlen
        ptrval := located.ptrval }
    have keptMoved : moved.chainoff = db.chainoff := kept
    apply found moved _ front entry back rfl earlier fits keptMoved relocated
    rw [encodePointer, ← printInt_natCast]
    rfl

end Append

/-! ## The history of a state is of no account -/

def State.withHistory (state : State Unit) (history : List (Event Unit Call Return)) : State Unit :=
  { state with history := history }

theorem halting_withHistory (history : List (Event Unit Call Return)) (command : Command)
    (state : State Unit) (unmarked : ¬ IsMark command) :
    halting command (state.withHistory history) =
      ((halting command state).map fun outcome =>
        (outcome.1, outcome.2.withHistory history)).mapError fun stop =>
          (stop.1, stop.2.withHistory history) := by
  cases command with
  | invoke call => exact absurd trivial unmarked
  | respond result => exact absurd trivial unmarked
  | «open» file truncate =>
      cases truncate <;> rfl
  | _ => rfl

theorem runAlone_withHistory {Result : Type} {function : Library Result} (quiet : Quiet function)
    (db : DB) (state : State Unit) (history : List (Event Unit Call Return)) :
    runAlone function db (state.withHistory history) =
      ((runAlone function db state).map fun outcome =>
        (outcome.1, outcome.2.withHistory history)).mapError fun stop =>
          (stop.1, stop.2.withHistory history) :=
  (quiet.avoids db).run_map (halting_withHistory history) state

theorem answer_halting (command : Command) (state : State Unit) :
    answer command state = ((halting command state).map fun outcome =>
      (outcome.1, id outcome.2)).mapError Prod.fst := by
  cases command <;> rfl

/-- Both ways to run a process alone come to the same end. -/
theorem run_answer {Result : Type} {function : Library Result} {db : DB} {state : State Unit}
    {outcome : (Result × DB) × State Unit} (ran : runAlone function db state = .ok outcome) :
    (function db).run answer state = .ok outcome := by
  have alike := (Program.avoids_nothing (function db)).run_map
    (fun command before _ => answer_halting command before) state
  change (function db).run answer state = ((runAlone function db state).map _).mapError _ at alike
  rw [ran] at alike
  exact alike

/-! ## Where `db_store` ends the process -/

theorem Valid.freeList {ghost : Ghost Unit} {state : State Unit} (valid : Valid ghost state)
    (resting : ghost.Resting) : ∃ blanks, DiskList ghost.disk FREE_OFF blanks := by
  rcases resting.lists valid with ⟨lists⟩
  exact ⟨lists.entries .free,
    { linked := lists.free.list.linked.mono fun offset pointer stored => valid.of_part stored
      record := fun entry member => lists.item_of_entry valid member
      extent := fun entry member => lists.data_of_entry valid member
      length_le := lists.free.list.length_le }⟩

section Store

variable {disk : Disk} {table : Table} {db : DB} {state after : State Unit} {key data : CString}
  {flag : Int} {failure : Failure}

def DataFits (data : Bytes) : Prop :=
  DATLEN_MIN ≤ data.length + 1 ∧ data.length + 1 ≤ DATLEN_MAX

/-- What `db_store` has done to the files when appending a record ends the process. -/
def AppendStopped (disk : Disk) (key data : CString) (after : State Unit) : Prop :=
  (¬ TextFits key.1 disk.dataFile.length (data.1.length + 1) ∧
    after.files = (disk.addData data).files) ∨
  TextFits key.1 disk.dataFile.length (data.1.length + 1) ∧
    ∃ (pointer : Pointer) (body : Body), body.key = key.1 ∧ body.datoff = disk.dataFile.length ∧
      body.datlen = data.1.length + 1 ∧ after.files = (disk.withOrphan pointer body data).files

theorem DiskList.first {head : Nat} {entries : List Entry} (list : DiskList disk head entries) :
    ∃ (item : IndexItem) (pointer : Pointer), disk.item head = some item ∧
      item.pointer = some pointer.1 := by
  rcases Option.bind_eq_some_iff.mp list.linked.first with ⟨item, found, linked⟩
  cases item with
  | head pointer => exact ⟨_, pointer, found, rfl⟩
  | newline => cases linked
  | record pointer body => exact ⟨_, pointer, found, rfl⟩

/-- The pointer to a hash chain can be read. -/
theorem stopped_readptr {Result : Type} {rest : Int → Library Result}
    {stop : Failure × State Unit} (contents : Contents disk table)
    (files : state.files = disk.files) {chain : Chain} (chainoff : db.chainoff = headOffset chain)
    (stopped : runAlone (do rest (← dbReadptr (← get).chainoff)) db state = .error stop) :
    ∃ (pointer : Pointer) (db' : DB), db'.chainoff = headOffset chain ∧
      runAlone (rest pointer.1) db' state = .error stop := by
  rcases (contents.list chain).first with ⟨item, pointer, found, linked⟩
  change runAlone (do rest (← dbReadptr db.chainoff)) db state = .error stop at stopped
  rw [chainoff] at stopped
  have read : Alone (fun (ptrval : Int) db' between => ptrval = pointer.1 ∧
      db'.chainoff = db.chainoff ∧ between = state) (dbReadptr (headOffset chain)) db state :=
    alone_readptr files found linked ⟨rfl, rfl, rfl⟩
  rcases stopped_bind read stopped with ⟨_, db', _, ⟨rfl, kept, rfl⟩, ended⟩
  exact ⟨pointer, db', kept.trans chainoff, ended⟩

theorem stopped_storeAppend {Result : Type} {rest : Unit → Library Result} {pointer : Pointer}
    {chainoff : Nat} (files : state.files = disk.files) (isChain : db.chainoff = chainoff)
    (noSep : ∀ byte ∈ key.1, byte ≠ SEP) (fits : DataFits data.1)
    (returns : ∀ result db' between, ∃ outcome, runAlone (rest result) db' between = .ok outcome)
    (stopped : runAlone (storeAppend key.1 data.1 pointer.1 >>= rest) db state =
      .error (failure, after)) : AppendStopped disk key data after := by
  rcases storeAppend_stopped files isChain noSep fits.2 (stopped_first returns stopped) with
    unfit | ⟨isFit, body, isKey, isDatoff, isDatlen, same⟩
  · exact Or.inl unfit
  · exact Or.inr ⟨isFit, pointer, body, isKey, isDatoff, isDatlen, same⟩

theorem storeAbsent_stopped (contents : Contents disk table) {blanks : List Entry}
    (free : DiskList disk FREE_OFF blanks)
    (files : state.files = disk.files) (chainoff : db.chainoff = headOffset (chainOf key.1))
    (noSep : ∀ byte ∈ key.1, byte ≠ SEP) (fits : DataFits data.1)
    (stopped : runAlone (storeAbsent key.1 data.1 flag) db state = .error (failure, after)) :
    AppendStopped disk key data after := by
  unfold storeAbsent at stopped
  by_cases replace : flag = DB_REPLACE
  · rw [if_pos replace] at stopped
    cases stopped
  rw [if_neg replace] at stopped
  rcases stopped_readptr contents files chainoff stopped with ⟨pointer, db', isChain, stopped⟩
  have searched : Alone (fun rc db'' between => db''.chainoff = db'.chainoff ∧
      (rc = -1 ∧ between.files = disk.files ∨ rc = 0 ∧ ∃ (entry : Entry) (next : Nat),
        entry.HasSizes key.1.length (data.1.length + 1) ∧ db''.At entry next))
      (dbFindfree key.1.length (data.1.length + 1)) db' state := by
    apply alone_findfree files free
    · exact fun _ _ kept same _ => ⟨kept, Or.inl ⟨rfl, same.trans files⟩⟩
    · exact fun _ _ _ entry _ _ _ fits kept located _ =>
        ⟨kept, Or.inr ⟨rfl, entry, _, fits, located⟩⟩
  rcases stopped_bind searched stopped with ⟨rc, db'', between, ⟨kept, outcome⟩, stopped⟩
  rcases outcome with ⟨rfl, same⟩ | ⟨rfl, entry, next, fits, located⟩
  · rw [if_pos (by decide)] at stopped
    exact stopped_storeAppend same (kept.trans isChain) noSep fits (fun _ _ _ => ⟨_, rfl⟩) stopped
  · rw [if_neg (by decide)] at stopped
    rcases stopped_bind (storeReuse_returns located (kept.trans isChain) fits.1 fits.2) stopped with
      ⟨_, _, _, _, stopped⟩
    cases stopped

end Store

/-! ## What a call of `db_delete` leaves -/

section Delete

variable {calls : List Call} {idx dat : Bytes} {returns : List Return} {db : DB}
  {last : State Unit} {key : CString}

theorem runSession_append_one {call : Call} {result : Return} {db' : DB} {after : State Unit}
    (ran : runSession calls idx dat = .ok ((returns, db), last))
    (executed : runAlone call.execute db (invoked last call) = .ok ((result, db'), after)) :
    runSession (calls ++ [call]) idx dat =
      .ok ((returns ++ [result], db'), responded after result) := by
  have more : (runCalls [call] db).run answer last =
      .ok (([result], db'), responded after result) := by
    apply run_answer
    change runAlone (call.execute >>= fun result => do
      perform (.respond result)
      let results ← runCalls []
      return result :: results) db (invoked last call) = _
    rw [runAlone_then executed]
    rfl
  rw [runSession_eq] at ran ⊢
  rw [runCalls_append]
  change (runCalls calls openedDB >>= fun before => runCalls [call] before.2 >>= fun after =>
    .done (before.1 ++ after.1, after.2)).run answer newState = _
  rw [Program.run_bind, ran]
  change (runCalls [call] db >>= fun after => .done (returns ++ after.1, after.2)).run answer last = _
  rw [Program.run_bind, more]
  rfl

/-- After a session, `db_delete` returns, and the files have the map without the key. -/
theorem delete_of_session (sound : ∀ call ∈ calls, call.Sound)
    (ran : runSession calls idx dat = .ok ((returns, db), last)) (key : CString) :
    Alone (fun _ db' after => db'.chainoff = headOffset (chainOf key.1) ∧
      ∃ disk table, Nonempty (Contents disk table) ∧ after.files = disk.files ∧ table key.1 = none)
      (dbDelete key.1) db (invoked last (.delete key)) := by
  rcases runSession_ends sound ran with ⟨_, ghost, valid, idle, _⟩
  have safe : LibrarySafe (fun _ => False) () (fun _ db' _ => db'.chainoff = headOffset (chainOf key.1))
      (perform (.invoke (.delete key)) >>= fun _ => dbDelete key.1) db (atRest () .idle) := by
    apply bind_safe
    apply invoke_safe
    have deletes : LibrarySafe (fun _ => False) ()
        (fun _ db' _ => db'.chainoff = headOffset (chainOf key.1)) (dbDelete key.1) db
        (atRest () (.called (.delete key))) := delete_safe fun _ _ chainoff => chainoff
    exact deletes
  rw [← idle] at safe
  rcases alone_of_safe valid safe with ⟨code, db', after, deleted, _, _, chainoff⟩
  change runAlone (dbDelete key.1) db (invoked last (.delete key)) = _ at deleted
  refine ⟨code, db', after, deleted, chainoff, ?_⟩
  have executed : runAlone (Call.delete key).execute db (invoked last (.delete key)) =
      .ok ((.code code, db'), after) := by
    change runAlone (dbDelete key.1 >>= _) db _ = _
    rw [runAlone_then deleted]
    rfl
  have soundMore : ∀ call ∈ calls ++ [.delete key], call.Sound := by
    intro call member
    rcases List.mem_append.mp member with earlier | isDelete
    · exact sound call earlier
    · rw [List.mem_singleton.mp isDelete]
      exact fun inserts => absurd inserts id
  rcases runSession_ends soundMore (runSession_append_one ran executed) with
    ⟨_, ghost', valid', idle', object⟩
  rcases valid'.contents (resting_of_idle idle') with ⟨contents⟩
  refine ⟨_, _, ⟨contents⟩, valid'.files, ?_⟩
  rw [object, AtomicObject.finalObject_concat]
  exact applyCall_delete_self key _

/-- What `db_delete` leaves in the files is what `_db_dodelete` leaves. -/
theorem dodelete_of_delete {post : Int → DB → State Unit → Prop} {state locked : State Unit}
    {there : DB} (searched : runAlone (dbFindAndLock key.1 true) db state = .ok ((0, there), locked))
    (deleted : Alone post (dbDelete key.1) db state) :
    Alone (fun _ db' after => ∃ code unlocked, post code db' unlocked ∧
      unlocked.files = after.files) dbDodelete there locked := by
  rcases deleted with ⟨code, db', unlocked, ran, holds⟩
  unfold dbDelete at ran
  rw [runAlone_then searched] at ran
  change runAlone (dbDodelete >>= fun _ => do
    perform (.unlock .idx (← get).chainoff.toNat 1)
    return 0) there locked = _ at ran
  rw [runAlone_bind] at ran
  cases dodeleted : runAlone dbDodelete there locked with
  | error stop =>
      rw [dodeleted] at ran
      cases ran
  | ok outcome =>
      rcases outcome with ⟨⟨_, db''⟩, after⟩
      rw [dodeleted] at ran
      cases ran
      exact ⟨(), _, after, dodeleted, _, _, holds, rfl⟩

end Delete

section Store

variable {db : DB} {state after : State Unit} {key data : CString} {flag : Int} {failure : Failure}

/-- `db_store` ends the process with the old record already deleted. -/
theorem storePresent_stopped (dodeleted : Alone (fun _ db' after =>
      db'.chainoff = headOffset (chainOf key.1) ∧ ∃ disk table, Nonempty (Contents disk table) ∧
        after.files = disk.files ∧ table key.1 = none) dbDodelete db state)
    {entry : Entry} {next : Nat} (located : db.At entry next)
    (noSep : ∀ byte ∈ key.1, byte ≠ SEP) (fits : DataFits data.1)
    (stopped : runAlone (storePresent key.1 data.1 flag) db state = .error (failure, after)) :
    ∃ disk table, Nonempty (Contents disk table) ∧ table key.1 = none ∧
      AppendStopped disk key data after := by
  unfold storePresent at stopped
  by_cases insert : flag = DB_INSERT
  · rw [if_pos insert] at stopped
    cases stopped
  rw [if_neg insert] at stopped
  change runAlone (if data.1.length + 1 ≠ db.datlen then _ else _) db state = _ at stopped
  by_cases different : data.1.length + 1 ≠ db.datlen
  · rw [if_pos different] at stopped
    rcases stopped_bind dodeleted stopped with
      ⟨_, db', between, ⟨chainoff, disk, table, ⟨contents⟩, files, absent⟩, stopped⟩
    rcases stopped_readptr contents files chainoff stopped with ⟨pointer, db'', isChain, stopped⟩
    exact ⟨disk, table, ⟨contents⟩, absent,
      stopped_storeAppend files isChain noSep fits (fun _ _ _ => ⟨_, rfl⟩) stopped⟩
  · rw [if_neg different] at stopped
    change runAlone (dbWritedat data.1 (.set db.datoff) >>= fun _ => pure 0) db state = _ at stopped
    rw [located.datoff] at stopped
    have written : Alone (fun _ _ _ => True) (dbWritedat data.1 (.set entry.body.datoff)) db state :=
      alone_writedat_set fun _ _ _ _ _ _ => trivial
    rcases stopped_bind written stopped with ⟨_, _, _, _, stopped⟩
    cases stopped

end Store

/-! ## What another process reads -/

/-- The end of a process releases its locks. -/
def State.released (state : State Unit) : State Unit := { state with locks := fun _ _ _ => none }

def fetchAnew (key : Bytes) : Library (Option Bytes) := do
  dbOpen false false
  dbFetch key

def scanAnew (count : Nat) : Library (List (Option (Bytes × Bytes))) := do
  dbOpen false false
  scan count

/-- What a process gets that opens the database. -/
def Gets {Result : Type} (function : Library Result) (state : State Unit) (result : Result) : Prop :=
  ∃ db after, runAlone function dbAlloc state.released = .ok ((result, db), after)

/-- The scan of a process that opens the database returns the pair. -/
def Scans (state : State Unit) (pair : Bytes × Bytes) : Prop :=
  ∃ count results, Gets (scanAnew count) state results ∧ some pair ∈ results

/-- A process that opens the database cannot tell the states apart. -/
structure SameDatabase (before after : State Unit) : Prop where
  fetches : ∀ key result, Gets (fetchAnew key) before result ↔ Gets (fetchAnew key) after result
  scans : ∀ pair, Scans before pair ↔ Scans after pair

/-- The files `now` have what `disk` has, and perhaps one record more. -/
structure Extends (disk now : Disk) (more : List IndexItem) : Prop where
  split : now.idx = disk.idx ++ more
  kinds : ∀ item ∈ more, item.kind = .record
  atMostOne : more.length ≤ 1
  data : ∀ offset data, disk.data offset = some data → now.data offset = some data
  readable : ∀ stored body, .record stored body ∈ more →
    ∃ data, now.data body.datoff = some data ∧ body.datlen = data.1.length + 1

section Reading

variable {disk now : Disk} {table : Table} {more : List IndexItem} {state : State Unit}

theorem Extends.refl (disk : Disk) : Extends disk disk [] where
  split := (List.append_nil _).symm
  kinds := fun _ member => nomatch member
  atMostOne := Nat.zero_le 1
  data := fun _ _ found => found
  readable := fun _ _ member => nomatch member

theorem Disk.data_of_addData (data : CString) {offset : Nat} {old : CString}
    (found : disk.data offset = some old) : (disk.addData data).data offset = some old := by
  rw [Disk.data_addData, if_neg, found]
  rintro rfl
  cases (itemAt_beyond encodeData_nonempty disk.dat (Nat.le_refl _)).symm.trans found

theorem Extends.addData (disk : Disk) (data : CString) : Extends disk (disk.addData data) [] where
  split := (List.append_nil _).symm
  kinds := fun _ member => nomatch member
  atMostOne := Nat.zero_le 1
  data := fun _ _ found => Disk.data_of_addData data found
  readable := fun _ _ member => nomatch member

theorem Extends.orphan (disk : Disk) {pointer : Pointer} {body : Body} {data : CString}
    (isDatoff : body.datoff = disk.dataFile.length) (isDatlen : body.datlen = data.1.length + 1) :
    Extends disk (disk.withOrphan pointer body data) [.record pointer body] where
  split := rfl
  kinds := by
    intro item member
    rw [List.mem_singleton.mp member]
    rfl
  atMostOne := Nat.le_refl 1
  data := fun _ _ found => Disk.data_of_addData data found
  readable := by
    intro stored other member
    cases List.mem_singleton.mp member
    refine ⟨data, ?_, isDatlen⟩
    change (disk.addData data).data body.datoff = _
    rw [Disk.data_addData, if_pos isDatoff]

theorem Extends.item (extension : Extends disk now more) {offset : Nat} {item : IndexItem}
    (found : disk.item offset = some item) : now.item offset = some item := by
  rcases split_of_itemAt found with ⟨before, after, split, rfl, _⟩
  rw [Disk.item, extension.split, split, List.append_assoc]
  exact itemAt_split IndexItem.encode_nonempty _ _ _

theorem Extends.list (extension : Extends disk now more) {head : Nat} {entries : List Entry}
    (list : DiskList disk head entries) : DiskList now head entries where
  linked := by
    apply list.linked.mono
    intro offset pointer stored
    rcases Option.bind_eq_some_iff.mp stored with ⟨item, found, linked⟩
    exact Option.bind_eq_some_iff.mpr ⟨item, extension.item found, linked⟩
  record := by
    intro entry member
    rcases list.record entry member with ⟨pointer, found⟩
    exact ⟨pointer, extension.item found⟩
  extent := fun entry member => extension.data _ _ (list.extent entry member)
  length_le := list.length_le

theorem Extends.readable_now (extension : Extends disk now more) (contents : Contents disk table) :
    now.Readable := by
  intro stored body member notBlank
  rw [extension.split] at member
  rcases List.mem_append.mp member with old | new
  · rcases contents.readable stored body old notBlank with ⟨data, found, length⟩
    exact ⟨data, extension.data _ _ found, length⟩
  · exact extension.readable stored body new

theorem Extends.pairs (extension : Extends disk now more) (contents : Contents disk table) :
    now.pairs = disk.pairs ++ more.filterMap now.scanned := by
  rw [Disk.pairs, extension.split, List.filterMap_append, Disk.pairs]
  congr 1
  apply List.filterMap_congr
  intro item member
  cases item with
  | head pointer => rfl
  | newline => rfl
  | record stored body =>
      rw [Disk.scanned, Disk.scanned]
      by_cases blank : isBlank body.key = true
      · rw [if_pos blank, if_pos blank]
      · rcases contents.readable stored body member (Bool.eq_false_of_not_eq_true blank) with
          ⟨data, found, _⟩
        rw [if_neg blank, if_neg blank, found, extension.data _ _ found]

theorem Gets.of_alone {Result : Type} {function : Library Result} {value result : Result}
    (alone : Alone (fun result _ _ => result = value) function dbAlloc state.released) :
    Gets function state result ↔ result = value := by
  rcases alone with ⟨_, db, after, ran, rfl⟩
  constructor
  · rintro ⟨_, _, ran'⟩
    cases ran.symm.trans ran'
    rfl
  · rintro rfl
    exact ⟨db, after, ran⟩

theorem alone_open_existing {post : Unit → DB → State Unit → Prop} {db : DB}
    (continued : post () db.rewound state) : Alone post (dbOpen false false) db state := by
  unfold dbOpen
  apply alone_bind
  apply alone_open
  apply alone_bind
  apply alone_open
  apply alone_bind
  apply alone_lseekIdx
  apply alone_modify
  exact continued

/-- A process that opens the database finds what the map has. -/
theorem gets_fetchAnew (contents : Contents disk table) (extension : Extends disk now more)
    (files : state.files = now.files) {key : Bytes} {result : Option Bytes} :
    Gets (fetchAnew key) state result ↔ result = table key := by
  apply Gets.of_alone
  apply alone_bind
  apply alone_open_existing
  have unlocked : Unlocked state.released := rfl
  have filesHere : state.released.files = now.files := files
  exact (alone_fetch contents (fun number => extension.list (contents.list number)) filesHere
    unlocked key).mono fun _ _ _ found => found.1

theorem gets_scanAnew (contents : Contents disk table) (extension : Extends disk now more)
    (files : state.files = now.files) {count : Nat} {results : List (Option (Bytes × Bytes))} :
    Gets (scanAnew count) state results ↔
      results = (List.range count).map fun i => now.pairs[i]? := by
  apply Gets.of_alone
  apply alone_bind
  apply alone_open_existing
  have unlocked : Unlocked state.released := rfl
  rcases contents.rewound_more extension.split extension.kinds extension.atMostOne dbAlloc.rewound
    with ⟨heads, records, place, same⟩
  rw [← same]
  apply alone_bind
  apply alone_bind
  apply alone_lseekIdx
  apply alone_modify
  have filesHere : state.released.files = now.files := files
  exact (alone_nextrecs filesHere unlocked (extension.readable_now contents) place).mono
    fun _ _ _ found => found.1

theorem scans_iff (contents : Contents disk table) (extension : Extends disk now more)
    (files : state.files = now.files) {pair : Bytes × Bytes} :
    Scans state pair ↔ pair ∈ now.pairs := by
  constructor
  · rintro ⟨count, results, gets, member⟩
    rw [(gets_scanAnew contents extension files).mp gets] at member
    rcases List.mem_map.mp member with ⟨i, _, found⟩
    exact List.mem_of_getElem? found
  · intro member
    rcases List.mem_iff_getElem?.mp member with ⟨i, found⟩
    refine ⟨i + 1, _, (gets_scanAnew contents extension files).mpr rfl, ?_⟩
    exact List.mem_map.mpr ⟨i, List.mem_range.mpr (Nat.lt_succ_self i), found⟩

end Reading

/-! ## When the database is as it was -/

section Session

variable {disk : Disk} {table : Table} {key data : CString} {flag : Int} {failure : Failure}
  {state after : State Unit} {db : DB}

theorem AppendStopped.extends (stopped : AppendStopped disk key data after) :
    ∃ now more, Extends disk now more ∧ after.files = now.files := by
  rcases stopped with ⟨_, files⟩ | ⟨_, pointer, body, _, isDatoff, isDatlen, files⟩
  · exact ⟨_, _, Extends.addData disk data, files⟩
  · exact ⟨_, _, Extends.orphan disk isDatoff isDatlen, files⟩

/-- With an absent key everything is as it was, but for a record that has been
written and that a scan takes for one of the database. -/
theorem AppendStopped.same_iff (stopped : AppendStopped disk key data after)
    (contents : Contents disk table) (files : state.files = disk.files)
    (absent : table key.1 = none) :
    SameDatabase state after ↔
      ¬ TextFits key.1 disk.dataFile.length (data.1.length + 1) ∨ isBlank key.1 = true := by
  have fetches : ∀ other result,
      Gets (fetchAnew other) state result ↔ Gets (fetchAnew other) after result := by
    intro other result
    rcases stopped.extends with ⟨now, more, extension, filesAfter⟩
    rw [gets_fetchAnew contents (Extends.refl disk) files,
      gets_fetchAnew contents extension filesAfter]
  have scansBefore : ∀ pair, Scans state pair ↔ pair ∈ disk.pairs := fun pair =>
    scans_iff contents (Extends.refl disk) files
  rcases stopped with ⟨unfit, filesAfter⟩ |
    ⟨fits, pointer, body, isKey, isDatoff, isDatlen, filesAfter⟩
  · refine iff_of_true ⟨fetches, fun pair => ?_⟩ (Or.inl unfit)
    have extension := Extends.addData disk data
    rw [scansBefore, scans_iff contents extension filesAfter, extension.pairs contents]
    simp
  · have extension : Extends disk (disk.withOrphan pointer body data) _ :=
      Extends.orphan disk isDatoff isDatlen
    have scansAfter : ∀ pair, Scans after pair ↔ pair ∈ disk.pairs ∨
        (disk.withOrphan pointer body data).scanned (.record pointer body) = some pair := by
      intro pair
      rw [scans_iff contents extension filesAfter, extension.pairs contents, List.mem_append,
        List.mem_filterMap]
      simp
    by_cases blank : isBlank key.1 = true
    · refine iff_of_true ⟨fetches, fun pair => ?_⟩ (Or.inr blank)
      rw [scansBefore, scansAfter, Disk.scanned, isKey, if_pos blank]
      simp
    · refine iff_of_false (fun same => ?_) (fun holds => holds.elim (absurd fits) blank)
      have isData : (disk.withOrphan pointer body data).data body.datoff = some data := by
        change (disk.addData data).data body.datoff = _
        rw [Disk.data_addData, if_pos isDatoff]
      have scanned : Scans after (key.1, data.1) := by
        rw [scansAfter, Disk.scanned, isKey, if_neg blank, isData]
        exact Or.inr rfl
      have present := contents.mem_pairs.mp ((scansBefore _).mp ((same.scans _).mpr scanned))
      cases absent.symm.trans present.2

/-- The end of the process is in the part of `db_store` behind its search. -/
theorem store_stopped {found : Int} {there : DB} {locked : State Unit} (fits : DataFits data.1)
    (searched : runAlone (dbFindAndLock key.1 true) db state = .ok ((found, there), locked))
    (stopped : runAlone (dbStore key.1 data.1 flag) db state = .error (failure, after)) :
    runAlone (if found < 0 then storeAbsent key.1 data.1 flag else storePresent key.1 data.1 flag)
      there locked = .error (failure, after) := by
  have inside : ¬ (data.1.length + 1 < DATLEN_MIN ∨ data.1.length + 1 > DATLEN_MAX) := by
    rw [DataFits] at fits
    omega
  unfold dbStore at stopped
  by_cases unknown : flag ≠ DB_INSERT ∧ flag ≠ DB_REPLACE ∧ flag ≠ DB_STORE
  · rw [if_pos unknown] at stopped
    cases stopped
  · rw [if_neg unknown] at stopped
    simp only [inside, if_false] at stopped
    rw [runAlone_then searched] at stopped
    by_cases absent : found < 0
    · simp only [absent, if_true] at stopped ⊢
      exact stopped_first (fun _ _ _ => ⟨_, rfl⟩) stopped
    · simp only [absent, if_false] at stopped ⊢
      exact stopped_first (fun _ _ _ => ⟨_, rfl⟩) stopped

/-- Data of a wrong length ends the process before anything is done. -/
theorem store_unfit (unfit : ¬ DataFits data.1)
    (stopped : runAlone (dbStore key.1 data.1 flag) db state = .error (failure, after)) :
    after = state := by
  have outside : data.1.length + 1 < DATLEN_MIN ∨ data.1.length + 1 > DATLEN_MAX := by
    rw [DataFits] at unfit
    omega
  unfold dbStore at stopped
  by_cases unknown : flag ≠ DB_INSERT ∧ flag ≠ DB_REPLACE ∧ flag ≠ DB_STORE
  · rw [if_pos unknown] at stopped
    cases stopped
  · rw [if_neg unknown] at stopped
    simp only [outside, if_true] at stopped
    cases stopped
    rfl

variable {calls : List Call} {idx dat : Bytes} {returns : List Return} {last : State Unit}

/-- With a key that is in the database its record is deleted by then. -/
theorem store_present_stopped (sound : ∀ call ∈ calls, call.Sound)
    (ran : runSession calls idx dat = .ok ((returns, db), last)) {old : Bytes}
    (present : AtomicObject.finalObject applyCall calls emptyTable key.1 = some old)
    (noSep : ∀ byte ∈ key.1, byte ≠ SEP) (fits : DataFits data.1)
    (stopped : runAlone (dbStore key.1 data.1 flag) db last = .error (failure, after)) :
    Gets (fetchAnew key.1) after none := by
  rcases runSession_ends sound ran with ⟨_, ghost, valid, idle, object⟩
  rcases valid.contents (resting_of_idle idle) with ⟨contents⟩
  rw [object] at contents
  -- `db_delete` is called from a state that differs in its history only.
  have stoppedCalled : runAlone (dbStore key.1 data.1 flag) db (invoked last (.delete key)) =
      .error (failure, after.withHistory (last.history ++ [.invoke () (.delete key)])) := by
    change runAlone _ db (last.withHistory _) = _
    rw [runAlone_withHistory (quiet_dbStore _ _ _), stopped]
    rfl
  have files : (invoked last (.delete key)).files = ghost.disk.files := valid.files
  have search : Alone _ (dbFindAndLock key.1 true) db _ :=
    alone_search contents contents.list files key.1 true
  rcases search with ⟨found, there, locked, isFound, searched⟩
  have inStore := store_stopped fits isFound stoppedCalled
  rcases searched.outcome with ⟨_, absent⟩ | ⟨rfl, entry, _, next, _, located⟩
  · cases absent.symm.trans present
  · rw [if_neg (by decide)] at inStore
    have dodeleted := dodelete_of_delete isFound (delete_of_session sound ran key)
    have left : Alone (fun _ db' after => db'.chainoff = headOffset (chainOf key.1) ∧
        ∃ disk table, Nonempty (Contents disk table) ∧ after.files = disk.files ∧
          table key.1 = none) dbDodelete there locked := by
      apply dodeleted.mono
      rintro _ db' between ⟨_, unlocked, ⟨chainoff, disk, table, contents', files', absent⟩, same⟩
      exact ⟨chainoff, disk, table, contents', same.symm.trans files', absent⟩
    rcases storePresent_stopped left located noSep fits inStore with
      ⟨disk, table, ⟨contents'⟩, absent, appended⟩
    rcases appended.extends with ⟨now, more, extension, filesAfter⟩
    have sameFiles : after.files = now.files := filesAfter
    rw [gets_fetchAnew contents' extension sameFiles, absent]

end Session

/-! ## A value that is lost -/

/-- A key for which an index record has just room. -/
def longKey : CString := ⟨List.replicate 1019 97, fun byte member => by
  rw [List.eq_of_mem_replicate member]
  decide⟩

def shortData : CString := ⟨[98], noNul_b⟩

def longData : CString := ⟨[49, 50, 51, 52, 53, 54, 55, 56, 57], by simp⟩

def storeLong : List Call := [.store longKey shortData DB_INSERT]

theorem longKey_noSep : ∀ byte ∈ longKey.1, byte ≠ SEP := by
  intro byte member
  rw [List.eq_of_mem_replicate member]
  decide

theorem storeLong_stopped : EndsWith (fun result =>
    EndsWith (fun fetched => fetched.1.1 = some [98])
        (runAlone (fetchAnew longKey.1) dbAlloc result.2.released) ∧
      StopsWith (fun stop => EndsWith (fun fetched => fetched.1.1 = none)
        (runAlone (fetchAnew longKey.1) dbAlloc stop.2.released))
        (runAlone (dbStore longKey.1 longData.1 DB_STORE) result.1.2 result.2))
    (runSession storeLong [] []) := by
  decide +kernel

theorem storeLong_sound : ∀ call ∈ storeLong, call.Sound := by
  intro call member
  rw [List.mem_singleton.mp member]
  exact fun _ => longKey_noSep

end Apue.Database
