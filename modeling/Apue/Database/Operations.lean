import Apue.Database.Rules

/-! # What the functions of the library do

One theorem for every internal function of the library: what it needs to know of
the files, and what its process knows when it returns. The `DB` structure is
part of both.
-/

namespace Apue.Database

open Apue.Foundation Ascii

section

variable {Process : Type} [DecidableEq Process]

/-- `Safe` for a function of the library, which starts with the structure `db`. -/
abbrev LibrarySafe {Result : Type} (stops : Failure → Prop) (process : Process)
    (post : Result → DB → Known Process → Prop) (function : Library Result) (db : DB)
    (here : Known Process) : Prop :=
  Safe stops process (fun outcome there => post outcome.1 outcome.2 there) (function db) here

variable {stops : Failure → Prop} {process : Process} {db : DB} {here : Known Process}
  {share : Share LockName}

section Primitive

variable {Result Next : Type} {post : Result → DB → Known Process → Prop}

theorem bind_safe {function : Library Result} {rest : Result → Library Next}
    {post : Next → DB → Known Process → Prop}
    (safe : LibrarySafe stops process
      (fun result db' there => LibrarySafe stops process post (rest result) db' there)
      function db here) :
    LibrarySafe stops process post (function >>= rest) db here :=
  LocalLogic.Safe.bind safe

theorem fail_safe {failure : Failure} (limit : stops failure) :
    LibrarySafe stops process post (fail failure) db here := by
  refine ⟨limit, fun ghost state valid same response => ?_⟩
  cases response

theorem lseekIdx_natCast (offset : Nat) :
    lseekIdx offset db = .done ((), { db with idxPosition := offset }) := by
  unfold lseekIdx
  rw [if_neg (by omega)]
  rfl

theorem lseekDat_natCast (offset : Nat) :
    lseekDat offset db = .done ((), { db with datPosition := offset }) := by
  unfold lseekDat
  rw [if_neg (by omega)]
  rfl

theorem lseekIdx_safe {post : Unit → DB → Known Process → Prop} {offset : Nat}
    (continued : post () { db with idxPosition := offset } here) :
    LibrarySafe stops process post (lseekIdx offset) db here := by
  rw [LibrarySafe, lseekIdx_natCast]
  exact continued

theorem lseekDat_safe {post : Unit → DB → Known Process → Prop} {offset : Nat}
    (continued : post () { db with datPosition := offset } here) :
    LibrarySafe stops process post (lseekDat offset) db here := by
  rw [LibrarySafe, lseekDat_natCast]
  exact continued

theorem pure_safe {result : Result} (continued : post result db here) :
    LibrarySafe stops process post (pure result) db here := continued

theorem get_safe {post : DB → DB → Known Process → Prop} (continued : post db db here) :
    LibrarySafe stops process post get db here := continued

theorem modify_safe {post : Unit → DB → Known Process → Prop} {change : DB → DB}
    (continued : post () (change db) here) :
    LibrarySafe stops process post (modify change) db here := continued

theorem takeLock_safe {post : Unit → DB → Known Process → Prop} (name : LockName)
    (mode : Mode) (below : ∀ other : LockName, here.held other ≠ none → other.rank < name.rank)
    (continued : ∀ part, lockInv name part →
      (∀ share, share ≠ .lock name → ∀ cell, part cell ≠ none →
        here.parts share cell = none) → post () db (here.acquire name mode part)) :
    LibrarySafe stops process post
      (perform (.lock name.file (kindOf mode) name.start name.length)) db here :=
  lock_safe name mode below continued

/-- A lock is given up again, and what was known before it was taken is left. -/
theorem giveLock_safe {post : Unit → DB → Known Process → Prop} (name : LockName)
    {mode : Mode} {part : Part Process} (free : here.held name = none)
    (empty : here.parts (.lock name) = .empty)
    (kept : mode = .exclusive → lockInv name part) (continued : post () db here) :
    LibrarySafe stops process post (perform (.unlock name.file name.start name.length)) db
      (here.acquire name mode part) := by
  apply unlock_safe name
  · rw [Holdings.acquire_held_same]
    exact Option.some_ne_none _
  · intro exclusive
    rw [Holdings.acquire_held_same] at exclusive
    rw [Holdings.acquire_parts_same]
    exact kept (Option.some.inj exclusive)
  · rw [Holdings.acquire_release free empty]
    exact continued

/-- Cells go from one part to another before a lock is given up. -/
theorem handOver_safe {post : Unit → DB → Known Process → Prop} {file : File}
    {start length : Nat} (source target : Share LockName) (moved : Cell Process → Bool)
    (fromSource : here.writable source) (toTarget : here.writable target)
    (different : source ≠ target)
    (continued : LibrarySafe stops process post (perform (.unlock file start length)) db
      ((here.setPart source ((here.parts source).without moved)).setPart target
        ((here.parts target).gain (here.parts source) moved))) :
    LibrarySafe stops process post (perform (.unlock file start length)) db here :=
  transfer_safe source target moved trivial fromSource toTarget different continued

theorem readIdx_safe {post : Bytes → DB → Known Process → Prop} {count : Nat}
    (continued : ∀ (ghost : Ghost Process) (state : State Process), Valid ghost state →
      ghost.ledger.localOf process = here → ∃ text,
        pread ghost.disk.indexFile db.idxPosition count = text ∧
          post text { db with idxPosition := db.idxPosition + text.length } here) :
    LibrarySafe stops process post (readIdx count) db here := by
  apply read_safe
  intro ghost state valid same
  rcases continued ghost state valid same with ⟨text, rfl, holds⟩
  exact holds

theorem readDat_safe {post : Bytes → DB → Known Process → Prop} {count : Nat}
    (continued : ∀ (ghost : Ghost Process) (state : State Process), Valid ghost state →
      ghost.ledger.localOf process = here → ∃ text,
        pread ghost.disk.dataFile db.datPosition count = text ∧
          post text { db with datPosition := db.datPosition + text.length } here) :
    LibrarySafe stops process post (readDat count) db here := by
  apply read_safe
  intro ghost state valid same
  rcases continued ghost state valid same with ⟨text, rfl, holds⟩
  exact holds

end Primitive

/-! ## Reading -/

theorem readptr_safe {post : Int → DB → Known Process → Prop} {offset pointer : Nat}
    (share : Share LockName) (knows : here.parts share (.pointer offset) = some pointer)
    (continued : post pointer { db with idxPosition := offset + PTR_SZ } here) :
    LibrarySafe stops process post (dbReadptr offset) db here := by
  apply bind_safe
  apply lseekIdx_safe
  apply bind_safe
  apply readIdx_safe
  intro ghost state valid same
  rcases item_of_pointer (valid.known same knows) with ⟨item, found, linked⟩
  have size : (encodePointer pointer).length = PTR_SZ := by
    cases item with
    | head stored => cases linked; exact encodePointer_length stored
    | newline => cases linked
    | record stored body => cases linked; exact encodePointer_length stored
  refine ⟨encodePointer pointer, Disk.pread_pointer found linked, ?_⟩
  simp only [size, ne_eq, not_true_eq_false, if_false, atol_encodePointer]
  exact continued

/-- The structure after an index record was read. -/
def DB.atRecord (db : DB) (offset next : Nat) (body : Body) : DB :=
  { db with
    idxbuf := body.key
    idxoff := offset
    idxlen := body.text.length
    datoff := body.datoff
    datlen := body.datlen
    ptrval := next
    idxPosition := offset + (PTR_SZ + IDXLEN_SZ) + body.text.length }

@[simp] theorem DB.atRecord_idxbuf (db : DB) (offset next : Nat) (body : Body) :
    (db.atRecord offset next body).idxbuf = body.key := rfl

@[simp] theorem DB.atRecord_datlen (db : DB) (offset next : Nat) (body : Body) :
    (db.atRecord offset next body).datlen = body.datlen := rfl

theorem readidx_safe {post : Int → DB → Known Process → Prop} {offset next : Nat}
    {body : Body} (behind : offset ≠ 0)
    (knowsPointer : here.parts share (.pointer offset) = some next)
    (knowsBody : here.parts share (.record offset) = some body)
    (continued : post next (db.atRecord offset next body) here) :
    LibrarySafe stops process post (dbReadidx offset) db here := by
  unfold dbReadidx
  simp only [Int.natCast_eq_zero, behind, if_false]
  apply bind_safe
  apply lseekIdx_safe
  apply bind_safe
  change LibrarySafe stops process _ (readIdx (PTR_SZ + IDXLEN_SZ) >>= _) _ here
  apply bind_safe
  apply readIdx_safe
  intro ghost state valid same
  rcases item_of_record (valid.known same knowsBody) with ⟨stored, found⟩
  have isNext : stored.1 = next := by
    have known := valid.known same knowsPointer
    rw [cellValue, found] at known
    exact Option.some.inj known
  subst isNext
  refine ⟨_, Disk.pread_front found, ?_⟩
  simp only [recordFront_length, ne_eq, not_true_eq_false, if_false, recordFront_pointer,
    recordFront_idxlen, body.idxlen_limits, Int.toNat_natCast]
  apply bind_safe
  change LibrarySafe stops process _ (modify _ >>= _) _ here
  apply bind_safe
  change LibrarySafe stops process _ (readIdx body.text.length >>= _) _ here
  apply bind_safe
  apply readIdx_safe
  intro ghost state valid same
  rcases item_of_record (valid.known same knowsBody) with ⟨stored', found'⟩
  refine ⟨body.text, Disk.pread_text found', ?_⟩
  simp only [not_true_eq_false, if_false, body.text_getLast, body.splitSep_text,
    splitSep_numbers, sep_notMem_decimal, atol_of_decimal, body.datoff_nonneg,
    body.datlen_limits, Int.toNat_natCast]
  exact continued

theorem readdat_safe {post : Bytes → DB → Known Process → Prop} {offset : Nat}
    {data : CString} (datoff : db.datoff = offset) (datlen : db.datlen = data.1.length + 1)
    (knows : here.parts share (.extent offset) = some data)
    (continued : ∀ position,
      post data.1 { db with datbuf := data.1, datPosition := position } here) :
    LibrarySafe stops process post dbReaddat db here := by
  unfold dbReaddat
  apply bind_safe
  change LibrarySafe stops process _ (lseekDat db.datoff >>= _) _ here
  rw [datoff]
  apply bind_safe
  apply lseekDat_safe
  apply bind_safe
  change LibrarySafe stops process _ (readDat db.datlen >>= _) _ here
  rw [datlen]
  apply bind_safe
  apply readDat_safe
  intro ghost state valid same
  have found : ghost.disk.data offset = some data := valid.known same knows
  have last : (encodeData data).getLast? = some NEWLINE := List.getLast?_concat
  refine ⟨encodeData data, Disk.pread_data found, ?_⟩
  simp only [datlen] at continued
  simp only [encodeData_length, ne_eq, not_true_eq_false, if_false, last, cString_data]
  exact continued _

/-! ## Searching -/

/-- The structure tells of a record that was read, whose chain pointer is `next`. -/
structure DB.At (db : DB) (entry : Entry) (next : Nat) : Prop where
  idxbuf : db.idxbuf = entry.body.key
  idxoff : db.idxoff = entry.offset
  datoff : db.datoff = entry.body.datoff
  datlen : db.datlen = entry.body.datlen
  ptrval : db.ptrval = next

section Lists

variable {head : Nat} {entries before after : List Entry} {entry : Entry}
  {more : Option (Cell Process)} {part : Part Process}

theorem ListPart.first (list : ListPart head (before ++ after) more part) :
    part (.pointer (lastField head (before.map Entry.offset))) =
      some (firstCell (after.map Entry.offset)) := by
  have linked := list.linked
  rw [List.map_append] at linked
  exact linked.behind.first

theorem lastField_concat_offset :
    lastField head ((before ++ [entry]).map Entry.offset) = entry.offset := by
  rw [List.map_append]
  exact lastField_concat _ _ _

theorem ListPart.link (list : ListPart head (before ++ entry :: after) more part) :
    part (.pointer entry.offset) = some (firstCell (after.map Entry.offset)) := by
  have linked : ListPart head ((before ++ [entry]) ++ after) more part := by
    rwa [List.append_assoc]
  have pointer := linked.first
  rwa [lastField_concat_offset] at pointer

theorem ListPart.owned (list : ListPart head (before ++ entry :: after) more part)
    {cell : Cell Process} (owned : entry.owns cell = true) : part cell ≠ none := by
  have member : entry ∈ before ++ entry :: after :=
    List.mem_append_right _ List.mem_cons_self
  rcases Entry.owns_iff.mp owned with rfl | rfl | rfl
  · rw [list.link]
    exact Option.some_ne_none _
  · rw [list.record entry member]
    exact Option.some_ne_none _
  · rw [list.extent entry member]
    exact Option.some_ne_none _

theorem readidx_entry_safe {post : Int → DB → Known Process → Prop}
    (list : ListPart head (before ++ entry :: after) more (here.parts share))
    (continued : post (firstCell (after.map Entry.offset))
      (db.atRecord entry.offset (firstCell (after.map Entry.offset)) entry.body) here) :
    LibrarySafe stops process post (dbReadidx entry.offset) db here := by
  have member : entry ∈ before ++ entry :: after :=
    List.mem_append_right _ List.mem_cons_self
  exact readidx_safe (Nat.ne_of_gt (Nat.lt_of_le_of_lt (Nat.zero_le _) entry.behind_heads))
    list.link (list.record entry member) continued

theorem DB.atRecord_at (next : Nat) :
    (db.atRecord entry.offset next entry.body).At entry next where
  idxbuf := rfl
  idxoff := rfl
  datoff := rfl
  datlen := rfl
  ptrval := rfl

/-- What the search for a key in a hash chain comes to. -/
theorem findKey_safe {post : Int → DB → Known Process → Prop} {key : Bytes} {bound : Nat}
    (list : ListPart head (before ++ after) more (here.parts share))
    (enough : after.length < bound)
    (ptroff : db.ptroff = lastField head (before.map Entry.offset))
    (earlier : ∀ entry ∈ before, entry.body.key ≠ key)
    (missing : ∀ db' : DB, db'.chainoff = db.chainoff →
      (∀ entry ∈ before ++ after, entry.body.key ≠ key) → post 0 db' here)
    (found : ∀ (db' : DB) before' entry after', db'.chainoff = db.chainoff →
      before ++ after = before' ++ entry :: after' → entry.body.key = key →
      db'.At entry (firstCell (after'.map Entry.offset)) →
      db'.ptroff = lastField head (before'.map Entry.offset) →
        post entry.offset db' here) :
    LibrarySafe stops process post (findKey key bound (firstCell (after.map Entry.offset))) db
      here := by
  induction after generalizing before bound db with
  | nil =>
      cases bound with
      | zero => exact absurd enough (Nat.not_lt_zero _)
      | succ bound =>
          exact missing db rfl (by rwa [List.append_nil])
  | cons entry after hypothesis =>
      cases bound with
      | zero => exact absurd enough (Nat.not_lt_zero _)
      | succ bound =>
          have positive := Nat.lt_of_le_of_lt (Nat.zero_le _) entry.behind_heads
          have notEnd : ¬ ((entry.offset : Int) = 0) := by omega
          rw [List.map_cons, firstCell_cons, findKey, if_neg notEnd]
          apply bind_safe
          apply readidx_entry_safe list
          apply bind_safe
          apply get_safe
          rw [DB.atRecord_idxbuf]
          by_cases same : entry.body.key = key
          · rw [if_pos same]
            exact found _ before entry after rfl rfl same (DB.atRecord_at _) ptroff
          · rw [if_neg same]
            apply bind_safe
            have whole : before ++ entry :: after = (before ++ [entry]) ++ after := by
              rw [List.append_assoc]
              rfl
            rw [whole] at list missing found
            apply hypothesis list (Nat.lt_of_succ_lt_succ enough)
            · rw [lastField_concat_offset]
            · intro other member
              rcases List.mem_append.mp member with among | isEntry
              · exact earlier other among
              · rw [List.mem_singleton.mp isEntry]
                exact same
            · exact missing
            · exact found

end Lists

/-- `_db_find_and_lock` comes back with the hash chain locked, and knows it. -/
theorem findAndLock_safe {post : Int → DB → Known Process → Prop} {key : Bytes}
    {writelock : Bool} (mode : Mode)
    (isMode : kindOf mode = if writelock then LockKind.write else LockKind.read)
    (free : ∀ other, here.held other = none)
    (missing : ∀ (db' : DB) entries table part, db'.chainoff = headOffset (chainOf key) →
      ChainPart (chainOf key) entries table part →
      (∀ entry ∈ entries, entry.body.key ≠ key) →
        post (-1) db' (here.acquire (.chain (chainOf key)) mode part))
    (found : ∀ (db' : DB) before entry after table part,
      db'.chainoff = headOffset (chainOf key) →
      ChainPart (chainOf key) (before ++ entry :: after) table part →
      entry.body.key = key → db'.At entry (firstCell (after.map Entry.offset)) →
      db'.ptroff = lastField (headOffset (chainOf key)) (before.map Entry.offset) →
        post 0 db' (here.acquire (.chain (chainOf key)) mode part)) :
    LibrarySafe stops process post (dbFindAndLock key writelock) db here := by
  unfold dbFindAndLock
  apply bind_safe
  apply modify_safe
  apply bind_safe
  apply modify_safe
  rw [← isMode]
  apply bind_safe
  apply get_safe
  apply bind_safe
  apply takeLock_safe (.chain (chainOf key)) mode
  · exact fun other holds => absurd (free other) holds
  rintro part ⟨entries, table, chain⟩ _
  have list : ListPart (headOffset (chainOf key)) ([] ++ entries) (some (.table (chainOf key)))
      ((here.acquire (.chain (chainOf key)) mode part).parts (.lock (.chain (chainOf key)))) := by
    rw [Holdings.acquire_parts_same]
    exact chain.list.list
  apply bind_safe
  apply get_safe
  apply bind_safe
  apply readptr_safe _ list.first
  apply bind_safe
  apply findKey_safe list (Nat.lt_succ_of_le list.length_le)
  · rfl
  · exact fun entry member => absurd member (List.not_mem_nil)
  · intro db' chainoff absent
    exact missing db' entries table part chainoff chain absent
  · intro db' before entry after chainoff split same located ptroff
    have behind := Nat.lt_of_le_of_lt (Nat.zero_le _) entry.behind_heads
    have notEnd : ¬ ((entry.offset : Int) = 0) := by omega
    rw [List.nil_append] at split
    subst split
    rw [if_neg notEnd]
    exact found db' before entry after table part chainoff chain same located ptroff

/-! ## Writing -/

theorem writeptr_safe {post : Unit → DB → Known Process → Prop} {offset old value : Nat}
    (share : Share LockName) (writable : here.writable share)
    (knows : here.parts share (.pointer offset) = some old)
    (tooFar : PTR_MAX < value → stops .writeptrPointer) (continued : ∀ position, value ≤ PTR_MAX → post () { db with idxPosition := position }
      (here.put share (.pointer offset) value)) :
    LibrarySafe stops process post (dbWriteptr offset value) db here := by
  unfold dbWriteptr
  by_cases fits : value ≤ PTR_MAX
  · have inRange : ¬ ((value : Int) < 0 ∨ (value : Int) > PTR_MAX) := by omega
    simp only [inRange, if_false, printInt_natCast]
    apply bind_safe
    apply lseekIdx_safe
    apply bind_safe
    apply get_safe
    apply bind_safe
    exact writePointer_safe writable knows ⟨value, fits⟩ (continued _ fits)
  · have outOfRange : (value : Int) < 0 ∨ (value : Int) > PTR_MAX := by omega
    simp only [outOfRange, if_true]
    apply bind_safe
    exact fail_safe (tooFar (Nat.lt_of_not_le fits))

/-- A pointer that fits in its field is written without fail. -/
theorem writeptr_fits_safe {post : Unit → DB → Known Process → Prop} {offset old value : Nat}
    (share : Share LockName) (writable : here.writable share)
    (knows : here.parts share (.pointer offset) = some old) (fits : value ≤ PTR_MAX)
    (continued : ∀ position, post () { db with idxPosition := position }
      (here.put share (.pointer offset) value)) :
    LibrarySafe stops process post (dbWriteptr offset value) db here := by
  apply writeptr_safe share writable knows
  · exact fun tooFar => absurd fits (Nat.not_le.mpr tooFar)
  · exact fun position _ => continued position

/-- A data record is written over one of its length. -/
theorem writedat_set_safe {post : Unit → DB → Known Process → Prop} {offset : Nat}
    {old data : CString} (share : Share LockName) (writable : here.writable share)
    (knows : here.parts share (.extent offset) = some old)
    (size : data.1.length = old.1.length)
    (continued : ∀ position, post ()
      { db with datoff := offset, datlen := data.1.length + 1, datPosition := position }
      (here.put share (.extent offset) data)) :
    LibrarySafe stops process post (dbWritedat data.1 (.set offset)) db here := by
  unfold dbWritedat
  apply bind_safe
  apply lseekDat_safe
  apply bind_safe
  apply modify_safe
  apply bind_safe
  apply modify_safe
  apply bind_safe
  apply bind_safe
  apply get_safe
  apply bind_safe
  exact writeData_safe writable knows size (continued _)

/-- A data record is written behind all others. -/
theorem writedat_append_safe {post : Unit → DB → Known Process → Prop} {data : CString}
    (below : ∀ other, here.held other ≠ none → other.rank < LockName.datEnd.rank)
    (empty : here.parts (.lock .datEnd) = .empty)
    (continued : ∀ (size : Nat) position,
      (∀ share, share ≠ .lock .datEnd → here.parts share (.extent size) = none) → post ()
        { db with datoff := size, datlen := data.1.length + 1, datPosition := position }
        (here.put .own (.extent size) data)) :
    LibrarySafe stops process post (dbWritedat data.1 .append) db here := by
  have free : here.held .datEnd = none := by
    by_contra holds
    exact Nat.lt_irrefl _ (below .datEnd holds)
  unfold dbWritedat
  apply bind_safe
  apply takeLock_safe .datEnd .exclusive below
  rintro part ⟨size, knows, only⟩ _
  apply bind_safe
  apply size_safe
  intro ghost state valid same
  have knowsHere : (here.acquire .datEnd .exclusive part).parts (.lock .datEnd) .datSize =
      some size := by
    rw [Holdings.acquire_parts_same, knows]
  have isSize : (ghost.disk.files .dat).length = size :=
    Option.some.inj (valid.known same knowsHere)
  rw [isSize]
  apply bind_safe
  apply lseekDat_safe
  apply bind_safe
  apply modify_safe
  apply bind_safe
  apply modify_safe
  apply bind_safe
  apply bind_safe
  apply get_safe
  apply bind_safe
  apply appendData_safe (Holdings.acquire_held_same _ _ _ _) knowsHere
  intro fresh
  rw [Holdings.acquire_put_of_ne _ (by simp), Holdings.acquire_put_same]
  apply giveLock_safe .datEnd
  · exact free
  · rwa [Holdings.put_parts_of_ne _ (by simp)]
  · exact fun _ => ⟨size + (data.1.length + 1), Fragment.put_same _ _ _, only.put _⟩
  · refine continued size _ fun share different => ?_
    have missing := fresh share
    rwa [Holdings.acquire_parts_of_ne _ different] at missing

/-- An index record is written over one of its length. -/
theorem writeidx_set_safe {post : Unit → DB → Known Process → Prop} {offset old : Nat}
    {body body' : Body} {key : Bytes} (share : Share LockName)
    (writable : here.writable share)
    (knows : here.parts share (.pointer offset) = some old)
    (knowsBody : here.parts share (.record offset) = some body)
    (size : body'.text.length = body.text.length) (isKey : body'.key = key)
    (datoff : db.datoff = body'.datoff) (datlen : db.datlen = body'.datlen)
    {new : Nat} (fits : new ≤ PTR_MAX)
    (continued : ∀ position, post ()
      { db with
        ptrval := new
        idxbuf := body'.text
        idxoff := offset
        idxPosition := position }
      ((here.put share (.pointer offset) new).put share (.record offset) body')) :
    LibrarySafe stops process post (dbWriteidx key (.set offset) new) db here := by
  have text : key ++ SEP :: printInt db.datoff ++ SEP :: decimal db.datlen ++ [NEWLINE] =
      body'.text := by
    rw [datoff, datlen, printInt_natCast, ← isKey]
    rfl
  have pointerInRange : ¬ ((new : Int) < 0 ∨ (new : Int) > PTR_MAX) := by
    omega
  have lengthInRange : ¬ (body'.text.length < IDXLEN_MIN ∨ body'.text.length > IDXLEN_MAX) := by
    have := body'.length_ge
    have := body'.length_le
    rw [Body.text]
    omega
  unfold dbWriteidx
  apply bind_safe
  apply modify_safe
  simp only [pointerInRange, if_false]
  apply bind_safe
  apply modify_safe
  apply bind_safe
  apply get_safe
  simp only [text, lengthInRange, if_false, printInt_natCast]
  apply bind_safe
  apply lseekIdx_safe
  apply bind_safe
  apply modify_safe
  apply bind_safe
  apply bind_safe
  apply get_safe
  apply bind_safe
  exact writeRecord_safe writable knows knowsBody size ⟨new, fits⟩ (continued _)

/-- An index record is written behind all others. -/
theorem writeidx_append_safe {post : Unit → DB → Known Process → Prop} {key : Bytes}
    {datoff datlen : Nat}
    (below : ∀ other, here.held other ≠ none → other.rank < LockName.idxEnd.rank)
    (empty : here.parts (.lock .idxEnd) = .empty)
    (noNul : ∀ byte ∈ key, byte ≠ 0) (noSep : ∀ byte ∈ key, byte ≠ SEP)
    (isDatoff : db.datoff = datoff) (isDatlen : db.datlen = datlen)
    (positive : 0 < datlen) (bounded : datlen ≤ DATLEN_MAX) {new : Nat}
    (fits : new ≤ PTR_MAX) (unfit : ¬ TextFits key datoff datlen → stops .writeidxLength)
    (continued : ∀ (size : Nat) (body : Body) position, (NHASH_DEF + 1) * PTR_SZ < size →
      body.key = key → body.datoff = datoff → body.datlen = datlen →
      (∀ share, share ≠ .lock .idxEnd → here.parts share (.record size) = none) → post ()
        { db with
          ptrval := new
          idxbuf := body.text
          idxoff := size
          idxPosition := position }
        ((here.put .own (.pointer size) new).put .own (.record size) body)) :
    LibrarySafe stops process post (dbWriteidx key .append new) db here := by
  have free : here.held .idxEnd = none := by
    by_contra holds
    exact Nat.lt_irrefl _ (below .idxEnd holds)
  have text : key ++ SEP :: printInt db.datoff ++ SEP :: decimal db.datlen ++ [NEWLINE] =
      recordText key datoff datlen := by
    rw [isDatoff, isDatlen, printInt_natCast]
    rfl
  have pointerInRange : ¬ ((new : Int) < 0 ∨ (new : Int) > PTR_MAX) := by
    omega
  unfold dbWriteidx
  apply bind_safe
  apply modify_safe
  simp only [pointerInRange, if_false]
  apply bind_safe
  apply modify_safe
  apply bind_safe
  apply get_safe
  by_cases tooLong : (recordText key datoff datlen).length < IDXLEN_MIN ∨
      (recordText key datoff datlen).length > IDXLEN_MAX
  · simp only [text, tooLong, if_true]
    apply bind_safe
    apply fail_safe
    apply unfit
    rw [TextFits]
    omega
  simp only [text, tooLong, if_false, printInt_natCast]
  rw [not_or, Nat.not_lt, Nat.not_lt] at tooLong
  let body : Body :=
    { key := key
      datoff := datoff
      datlen := datlen
      noNul := noNul
      noSep := noSep
      datlen_pos := positive
      datlen_le := bounded
      length_ge := tooLong.1
      length_le := tooLong.2 }
  apply bind_safe
  apply takeLock_safe .idxEnd .exclusive below
  rintro part ⟨size, behind, knows, only⟩ _
  apply bind_safe
  apply size_safe
  intro ghost state valid same
  have knowsHere : (here.acquire .idxEnd .exclusive part).parts (.lock .idxEnd) .idxSize =
      some size := by
    rw [Holdings.acquire_parts_same, knows]
  have isSize : (ghost.disk.files .idx).length = size :=
    Option.some.inj (valid.known same knowsHere)
  rw [isSize]
  apply bind_safe
  apply lseekIdx_safe
  apply bind_safe
  apply modify_safe
  apply bind_safe
  apply bind_safe
  apply get_safe
  apply bind_safe
  apply appendRecord_safe ⟨new, fits⟩ body (Holdings.acquire_held_same _ _ _ _) knowsHere
  intro fresh
  rw [Holdings.acquire_put_of_ne _ (by simp), Holdings.acquire_put_of_ne _ (by simp),
    Holdings.acquire_put_same]
  apply giveLock_safe .idxEnd
  · exact free
  · rwa [Holdings.put_parts_of_ne _ (by simp), Holdings.put_parts_of_ne _ (by simp)]
  · refine fun _ => ⟨_, ?_, Fragment.put_same _ _ _, only.put _⟩
    omega
  · refine continued size body _ behind rfl rfl rfl fun share different => ?_
    have missing := fresh share
    rwa [Holdings.acquire_parts_of_ne _ different] at missing

end

end Apue.Database
