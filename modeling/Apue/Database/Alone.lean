import Apue.Database.Sequential

/-! # What the functions read when no other process runs

The functions of the library that only read, for one process that runs alone.
What they return, and where they leave the file offset, follows from the items
of the files.
-/

namespace Apue.Database

open Apue.Foundation Ascii

/-- `answer` with the state that a process leaves behind when it ends. -/
def halting (command : Command) (state : State Unit) :
    Except (Failure × State Unit) (Response command × State Unit) :=
  match command, effect () state command with
  | _, some outcome => .ok outcome
  | .exit failure, none => .error (failure, state)
  | _, none => .error (.loopBound, state)

def runAlone {Result : Type} (function : Library Result) (db : DB) (state : State Unit) :
    Except (Failure × State Unit) ((Result × DB) × State Unit) :=
  (function db).run halting state

/-- Alone, the function returns with `post`. -/
def Alone {Result : Type} (post : Result → DB → State Unit → Prop) (function : Library Result)
    (db : DB) (state : State Unit) : Prop :=
  ∃ result db' after, runAlone function db state = .ok ((result, db'), after) ∧
    post result db' after

/-- The run ends with a result that `also` accepts. -/
inductive EndsWith {Stop Result : Type} (also : Result → Prop) : Except Stop Result → Prop
  | ok {result : Result} (accepted : also result) : EndsWith also (.ok result)

instance {Stop Result : Type} (also : Result → Prop) [DecidablePred also] :
    (run : Except Stop Result) → Decidable (EndsWith also run)
  | .ok result => decidable_of_iff (also result) ⟨.ok, fun | .ok accepted => accepted⟩
  | .error _ => isFalse nofun

theorem EndsWith.exists_ok {Stop Result : Type} {also : Result → Prop}
    {run : Except Stop Result} (ends : EndsWith also run) :
    ∃ result, run = .ok result ∧ also result := by
  cases ends with
  | ok accepted => exact ⟨_, rfl, accepted⟩

/-- The run is stopped in a way that `also` accepts. -/
inductive StopsWith {Stop Result : Type} (also : Stop → Prop) : Except Stop Result → Prop
  | error {stop : Stop} (accepted : also stop) : StopsWith also (.error stop)

instance {Stop Result : Type} (also : Stop → Prop) [DecidablePred also] :
    (run : Except Stop Result) → Decidable (StopsWith also run)
  | .ok _ => isFalse nofun
  | .error stop => decidable_of_iff (also stop) ⟨.error, fun | .error accepted => accepted⟩

theorem StopsWith.exists_error {Stop Result : Type} {also : Stop → Prop}
    {run : Except Stop Result} (stops : StopsWith also run) :
    ∃ stop, run = .error stop ∧ also stop := by
  cases stops with
  | error accepted => exact ⟨_, rfl, accepted⟩

section Primitive

variable {Result Next : Type} {db : DB} {state : State Unit}

theorem runAlone_bind (function : Library Result) (rest : Result → Library Next) :
    runAlone (function >>= rest) db state =
      match runAlone function db state with
      | .ok ((result, db'), after) => runAlone (rest result) db' after
      | .error stop => .error stop := by
  change Program.run halting (function db >>= fun outcome => rest outcome.1 outcome.2) state = _
  rw [Program.run_bind]
  unfold runAlone
  cases (function db).run halting state <;> rfl

/-- The rest runs from where a part has returned. -/
theorem runAlone_then {function : Library Result} {rest : Result → Library Next} {result : Result}
    {db' : DB} {after : State Unit}
    (ran : runAlone function db state = .ok ((result, db'), after)) :
    runAlone (function >>= rest) db state = runAlone (rest result) db' after := by
  rw [runAlone_bind, ran]

theorem alone_bind {function : Library Result} {rest : Result → Library Next}
    {post : Next → DB → State Unit → Prop}
    (first : Alone (fun result db' after => Alone post (rest result) db' after) function db
      state) :
    Alone post (function >>= rest) db state := by
  rcases first with ⟨result, db', after, ran, result', db'', last, ran', holds⟩
  refine ⟨result', db'', last, ?_, holds⟩
  rw [runAlone_then ran]
  exact ran'

theorem Alone.mono {function : Library Result} {post weaker : Result → DB → State Unit → Prop}
    (alone : Alone post function db state)
    (implies : ∀ result db' after, post result db' after → weaker result db' after) :
    Alone weaker function db state := by
  rcases alone with ⟨result, db', after, ran, holds⟩
  exact ⟨result, db', after, ran, implies _ _ _ holds⟩

theorem alone_pure {post : Result → DB → State Unit → Prop} {result : Result}
    (continued : post result db state) : Alone post (pure result) db state :=
  ⟨result, db, state, rfl, continued⟩

theorem alone_get {post : DB → DB → State Unit → Prop} (continued : post db db state) :
    Alone post get db state :=
  ⟨db, db, state, rfl, continued⟩

theorem alone_modify {post : Unit → DB → State Unit → Prop} {change : DB → DB}
    (continued : post () (change db) state) : Alone post (modify change) db state :=
  ⟨(), change db, state, rfl, continued⟩

theorem alone_lock {post : Unit → DB → State Unit → Prop} {file : File} {kind : LockKind}
    {start length : Nat}
    (continued : post () db (setLocks state () file start length (some kind))) :
    @Alone Unit post (perform (.lock file kind start length)) db state :=
  ⟨(), db, _, rfl, continued⟩

theorem alone_unlock {post : Unit → DB → State Unit → Prop} {file : File} {start length : Nat}
    (continued : post () db (setLocks state () file start length none)) :
    @Alone Unit post (perform (.unlock file start length)) db state :=
  ⟨(), db, _, rfl, continued⟩

theorem alone_lseekIdx {post : Unit → DB → State Unit → Prop} {offset : Nat}
    (continued : post () { db with idxPosition := offset } state) :
    Alone post (lseekIdx offset) db state :=
  ⟨(), _, state, by rw [runAlone, lseekIdx_natCast]; rfl, continued⟩

theorem alone_lseekDat {post : Unit → DB → State Unit → Prop} {offset : Nat}
    (continued : post () { db with datPosition := offset } state) :
    Alone post (lseekDat offset) db state :=
  ⟨(), _, state, by rw [runAlone, lseekDat_natCast]; rfl, continued⟩

theorem alone_size {post : Nat → DB → State Unit → Prop} {file : File}
    (continued : post (state.files file).length db state) :
    @Alone Nat post (perform (.size file)) db state :=
  ⟨_, db, state, rfl, continued⟩

theorem alone_writeIdx {post : Unit → DB → State Unit → Prop} {text : Bytes}
    (continued : post () { db with idxPosition := db.idxPosition + text.length }
      (setFile state .idx (pwrite (state.files .idx) db.idxPosition text))) :
    Alone post (writeIdx text) db state :=
  ⟨_, _, _, rfl, continued⟩

theorem alone_readIdx {post : Bytes → DB → State Unit → Prop} {count : Nat} {text : Bytes}
    (read : pread (state.files .idx) db.idxPosition count = text)
    (continued : post text { db with idxPosition := db.idxPosition + text.length } state) :
    Alone post (readIdx count) db state := by
  subst read
  exact ⟨_, _, state, rfl, continued⟩

theorem alone_readDat {post : Bytes → DB → State Unit → Prop} {count : Nat} {text : Bytes}
    (read : pread (state.files .dat) db.datPosition count = text)
    (continued : post text { db with datPosition := db.datPosition + text.length } state) :
    Alone post (readDat count) db state := by
  subst read
  exact ⟨_, _, state, rfl, continued⟩

end Primitive

theorem step_of_halting {command : Command} {state after : State Unit}
    {response : Response command} (answered : halting command state = .ok (response, after)) :
    Step () command state response after := by
  apply step_of_answer
  cases command <;> first | exact congrArg Except.ok (Except.ok.inj answered) | cases answered

/-- A function that is safe and does not end the process returns. -/
theorem alone_of_safe {Result : Type} {function : Library Result} {db : DB} {state : State Unit}
    {post : Result → DB → Known Unit → Prop} {ghost : Ghost Unit} (valid : Valid ghost state)
    (safe : LibrarySafe (fun _ => False) () post function db (ghost.ledger.localOf ())) :
    Alone (fun result db' after => ∃ ghost', Valid ghost' after ∧
      post result db' (ghost'.ledger.localOf ())) function db state := by
  rcases LocalLogic.Safe.run (fun _ _ _ _ => step_of_halting) safe valid with
    ⟨⟨result, db'⟩, after, ghost', ran, valid', _, holds⟩ |
    ⟨_, command, reached, ghost', _, _, _, allowed, answered⟩
  · exact ⟨result, db', after, ran, ghost', valid', holds⟩
  · cases command with
    | exit failure => exact absurd allowed id
    | _ => cases answered

/-! ## Reading items -/

section Reading

variable {disk : Disk} {db : DB} {state : State Unit}

theorem alone_readptr {post : Int → DB → State Unit → Prop} {offset pointer : Nat}
    {item : IndexItem} (files : state.files = disk.files)
    (found : disk.item offset = some item) (linked : item.pointer = some pointer)
    (continued : post pointer { db with idxPosition := offset + PTR_SZ } state) :
    Alone post (dbReadptr offset) db state := by
  have size : (encodePointer pointer).length = PTR_SZ := by
    cases item with
    | head stored => cases linked; exact encodePointer_length stored
    | newline => cases linked
    | record stored body => cases linked; exact encodePointer_length stored
  apply alone_bind
  apply alone_lseekIdx
  apply alone_bind
  have read : pread (state.files .idx) offset PTR_SZ = encodePointer pointer := by
    rw [files]
    exact Disk.pread_pointer found linked
  apply alone_readIdx read
  simp only [size, ne_eq, not_true_eq_false, if_false, atol_encodePointer]
  exact alone_pure continued

/-- A record is read from the offset that is given, or from the current one. -/
theorem alone_readidx_bytes {post : Int → DB → State Unit → Prop} {offset position : Nat}
    {stored : Pointer} {body : Body}
    (front : pread (state.files .idx) position (PTR_SZ + IDXLEN_SZ) = recordFront stored body)
    (text : pread (state.files .idx) (position + (PTR_SZ + IDXLEN_SZ)) body.text.length = body.text)
    (here : offset = position ∧ position ≠ 0 ∨ offset = 0 ∧ db.idxPosition = position)
    (continued : post stored.1 (db.atRecord position stored body) state) :
    Alone post (dbReadidx offset) db state := by
  unfold dbReadidx
  rcases here with ⟨rfl, behind⟩ | ⟨rfl, rfl⟩
  on_goal 1 =>
    simp only [Int.natCast_eq_zero, behind, if_false]
    apply alone_bind
    apply alone_lseekIdx
  on_goal 2 =>
    simp only [Nat.cast_zero, if_true]
  all_goals
    apply alone_bind
    apply alone_modify
    apply alone_bind
    apply alone_readIdx
    · exact front
    simp only [recordFront_length, ne_eq, not_true_eq_false, if_false, recordFront_pointer,
      recordFront_idxlen, body.idxlen_limits, Int.toNat_natCast]
    apply alone_bind
    apply alone_modify
    apply alone_bind
    apply alone_modify
    apply alone_bind
    apply alone_readIdx
    · exact text
    simp only [not_true_eq_false, if_false, body.text_getLast, body.splitSep_text,
      splitSep_numbers, sep_notMem_decimal, atol_of_decimal, body.datoff_nonneg,
      body.datlen_limits, Int.toNat_natCast]
    exact alone_bind (alone_modify (alone_bind (alone_get (alone_pure continued))))

theorem alone_readidx {post : Int → DB → State Unit → Prop} {offset position : Nat}
    {stored : Pointer} {body : Body} (files : state.files = disk.files)
    (found : disk.item position = some (.record stored body))
    (here : offset = position ∧ position ≠ 0 ∨ offset = 0 ∧ db.idxPosition = position)
    (continued : post stored.1 (db.atRecord position stored body) state) :
    Alone post (dbReadidx offset) db state := by
  apply alone_readidx_bytes _ _ here continued
  · rw [files]
    exact Disk.pread_front found
  · rw [files]
    exact Disk.pread_text found

/-- At the end of the index file there is no next record. -/
theorem alone_readidx_end {post : Int → DB → State Unit → Prop} (files : state.files = disk.files)
    (current : db.idxPosition = disk.indexFile.length)
    (continued : ∀ db' : DB, db'.idxPosition = db.idxPosition → post (-1) db' state) :
    Alone post (dbReadidx 0) db state := by
  have nothing : pread (state.files .idx) db.idxPosition (PTR_SZ + IDXLEN_SZ) = [] := by
    rw [files, current, pread]
    simp [Disk.files]
  unfold dbReadidx
  simp only [if_true]
  apply alone_bind
  apply alone_modify
  apply alone_bind
  apply alone_readIdx
  · exact nothing
  exact alone_pure (continued _ rfl)

theorem alone_readdat {post : Bytes → DB → State Unit → Prop} {offset : Nat} {data : CString}
    (files : state.files = disk.files) (found : disk.data offset = some data)
    (datoff : db.datoff = offset) (datlen : db.datlen = data.1.length + 1)
    (continued : ∀ position,
      post data.1 { db with datbuf := data.1, datPosition := position } state) :
    Alone post dbReaddat db state := by
  have last : (encodeData data).getLast? = some NEWLINE := List.getLast?_concat
  have read : pread (state.files .dat) offset (data.1.length + 1) = encodeData data := by
    rw [files]
    exact Disk.pread_data found
  unfold dbReaddat
  apply alone_bind
  apply alone_get
  rw [datoff]
  apply alone_bind
  apply alone_lseekDat
  apply alone_bind
  apply alone_get
  simp only [datlen]
  apply alone_bind
  apply alone_readDat read
  simp only [datlen] at continued
  simp only [encodeData_length, ne_eq, not_true_eq_false, if_false, last, cString_data]
  exact alone_bind (alone_modify (alone_bind (alone_get (alone_pure (continued _)))))

/-! ## Searching a list -/

/-- The records of a list, as the files hold them. -/
structure DiskList (disk : Disk) (head : Nat) (entries : List Entry) : Prop where
  linked : Linked (fun offset => (disk.item offset).bind IndexItem.pointer) head
    (entries.map Entry.offset)
  record : ∀ entry ∈ entries, ∃ pointer, disk.item entry.offset = some (.record pointer entry.body)
  extent : ∀ entry ∈ entries, disk.data entry.body.datoff = some entry.data
  length_le : entries.length ≤ PTR_MAX

variable {head : Nat} {before after entries : List Entry} {key : Bytes}

theorem DiskList.next {entry : Entry} {pointer : Pointer}
    (list : DiskList disk head (before ++ entry :: after))
    (item : disk.item entry.offset = some (.record pointer entry.body)) :
    pointer.1 = firstCell (after.map Entry.offset) := by
  have linked := list.linked
  have whole : before ++ entry :: after = (before ++ [entry]) ++ after := by
    rw [List.append_assoc]
    rfl
  rw [whole, List.map_append] at linked
  have first := linked.behind.first
  rw [lastField_concat_offset, item] at first
  exact Option.some.inj first

theorem alone_findKey {post : Int → DB → State Unit → Prop} {bound : Nat}
    (files : state.files = disk.files) (list : DiskList disk head (before ++ after))
    (enough : after.length < bound) (earlier : ∀ entry ∈ before, entry.body.key ≠ key)
    (missing : ∀ db' : DB, db'.chainoff = db.chainoff →
      (∀ entry ∈ before ++ after, entry.body.key ≠ key) → post 0 db' state)
    (found : ∀ (db' : DB) entry next, db'.chainoff = db.chainoff → entry ∈ before ++ after →
      entry.body.key = key → db'.At entry next → post entry.offset db' state) :
    Alone post (findKey key bound (firstCell (after.map Entry.offset))) db state := by
  induction after generalizing before bound db with
  | nil =>
      cases bound with
      | zero => exact absurd enough (Nat.not_lt_zero _)
      | succ bound => exact alone_pure (missing db rfl (by rwa [List.append_nil]))
  | cons entry after hypothesis =>
      cases bound with
      | zero => exact absurd enough (Nat.not_lt_zero _)
      | succ bound =>
          have positive := Nat.lt_of_le_of_lt (Nat.zero_le _) entry.behind_heads
          have notEnd : ¬ ((entry.offset : Int) = 0) := by omega
          have member : entry ∈ before ++ entry :: after :=
            List.mem_append_right _ List.mem_cons_self
          rcases list.record entry member with ⟨pointer, item⟩
          have next := list.next item
          have whole : before ++ entry :: after = (before ++ [entry]) ++ after := by
            rw [List.append_assoc]
            rfl
          rw [List.map_cons, firstCell_cons, findKey, if_neg notEnd]
          apply alone_bind
          apply alone_readidx files item (Or.inl ⟨rfl, Nat.ne_of_gt positive⟩)
          apply alone_bind
          apply alone_get
          rw [DB.atRecord_idxbuf]
          by_cases same : entry.body.key = key
          · rw [if_pos same]
            exact alone_pure (found _ entry _ rfl member same (DB.atRecord_at _))
          · rw [if_neg same, next]
            apply alone_bind
            apply alone_modify
            rw [whole] at list missing found
            apply hypothesis list (Nat.lt_of_succ_lt_succ enough)
            · intro other among
              rcases List.mem_append.mp among with inside | isEntry
              · exact earlier other inside
              · rw [List.mem_singleton.mp isEntry]
                exact same
            · exact missing
            · exact found

/-- No process holds a lock. -/
def Unlocked (state : State Unit) : Prop := state.locks = fun _ _ _ => none

/-- The state with the hash chain of a key locked. -/
def withKeyLocked (state : State Unit) (key : Bytes) (kind : LockKind) : State Unit :=
  setLocks state () .idx (headOffset (chainOf key)) 1 (some kind)

theorem unlock_withKeyLocked (unlocked : Unlocked state) (key : Bytes) (kind : LockKind) :
    setLocks (withKeyLocked state key kind) () .idx (headOffset (chainOf key)) 1 none = state := by
  rcases state with ⟨files, locks, history⟩
  cases unlocked
  simp only [withKeyLocked, setLocks, State.mk.injEq, true_and, and_true]
  funext process file byte
  cases file <;> simp

theorem alone_findAndLock {post : Int → DB → State Unit → Prop} {writelock : Bool}
    (files : state.files = disk.files)
    (list : DiskList disk (headOffset (chainOf key)) entries)
    (missing : ∀ db' : DB, db'.chainoff = headOffset (chainOf key) →
      (∀ entry ∈ entries, entry.body.key ≠ key) →
        post (-1) db' (withKeyLocked state key (if writelock then .write else .read)))
    (found : ∀ (db' : DB) entry next, db'.chainoff = headOffset (chainOf key) →
      entry ∈ entries → entry.body.key = key → db'.At entry next →
        post 0 db' (withKeyLocked state key (if writelock then .write else .read))) :
    Alone post (dbFindAndLock key writelock) db state := by
  unfold dbFindAndLock
  apply alone_bind
  apply alone_modify
  apply alone_bind
  apply alone_modify
  apply alone_bind
  apply alone_get
  apply alone_bind
  apply alone_lock
  apply alone_bind
  apply alone_get
  apply alone_bind
  have first := list.linked.first
  rcases Option.bind_eq_some_iff.mp first with ⟨item, isItem, linked⟩
  apply alone_readptr
  · exact files
  · exact isItem
  · exact linked
  apply alone_bind
  have whole : DiskList disk (headOffset (chainOf key)) ([] ++ entries) := list
  apply alone_findKey
  · exact files
  · exact whole
  · exact Nat.lt_succ_of_le list.length_le
  · exact fun entry member => absurd member List.not_mem_nil
  · exact fun db' chainoff absent => alone_pure (missing db' chainoff absent)
  · intro db' entry next chainoff member same located
    have behind := Nat.lt_of_le_of_lt (Nat.zero_le _) entry.behind_heads
    have notEnd : ¬ ((entry.offset : Int) = 0) := by omega
    rw [if_neg notEnd]
    exact alone_pure (found db' entry next chainoff member same located)

end Reading

end Apue.Database
