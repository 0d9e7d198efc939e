import Apue.Database.Moves

/-! # What the calls of the library do

Every call takes effect on the map at the moment it gives up its hash chain. A
call with a flag that is not known touches nothing.
-/

namespace Apue.Database

open Apue.Foundation Ascii

section

variable {Process : Type} [DecidableEq Process] {stops : Failure → Prop} {process : Process}
  {db : DB}

theorem onlyStatus_foreign {pending : Pending Call Return} {entry : Entry}
    {cell : Cell Process} (owned : entry.owns cell = true) :
    onlyStatus process pending cell = none := by
  apply Function.update_of_ne
  rcases Entry.owns_iff.mp owned with rfl | rfl | rfl <;> simp

section Finish

variable {post : Unit → DB → Known Process → Prop} {call : Call} {entries : List Entry}
  {table : Table} {part : Part Process} {chain : Chain}

/-- A call takes effect and gives up its hash chain, with the map as it is in the
chain. -/
theorem finish_safe {offset : Nat} (isHead : offset = headOffset chain)
    (isChain : chainOf call.key = chain) (list : ChainList chain entries part)
    (stored : part (.table chain) = some table)
    (tabulates : Tabulates entries (applyCall call table).2)
    (continued : post () db
      (atRest process (.effected (applyCall call table).1))) :
    LibrarySafe stops process post (perform (.unlock .idx offset 1)) db
      (withChain (onlyStatus process (.called call)) chain part) := by
  subst isHead isChain
  apply effectWrite_safe
  · trivial
  · rw [withChain_part_own]
    exact Fragment.put_same _ _ _
  · exact withChain_writable
  · rw [withChain_part]
    exact stored
  rw [withChain_put_own, withChain_put, onlyStatus_put]
  apply giveLock_safe (.chain (chainOf call.key))
  · rfl
  · rfl
  · intro _
    exact ⟨entries, _, list.setTable _, Fragment.put_same _ _ _, tabulates⟩
  · exact continued

/-- The same with a new record, which the process still owns. -/
theorem finishNew_safe {offset : Nat} {entry : Entry} {own' : Part Process}
    (isHead : offset = headOffset chain) (isChain : chainOf call.key = chain) (list : ChainList chain entries part)
    (stored : part (.table chain) = some table) (isKey : entry.body.key = call.key)
    (fresh : ∀ other ∈ entries, other.body.key ≠ entry.body.key)
    (owned : WithEntry (onlyStatus process (.called call)) entry
      (firstCell (entries.map Entry.offset)) own')
    (foreign : entry.Foreign part)
    (tabulates : Tabulates (entry :: entries) (applyCall call table).2)
    (continued : post () db
      (atRest process (.effected (applyCall call table).1))) :
    LibrarySafe stops process post (perform (.unlock .idx offset 1)) db
      (withChain own' chain (part.put (.pointer (headOffset chain)) entry.offset)) := by
  have headApart : headOffset chain ≠ entry.offset := by
    have := entry.behind_heads
    have := list.list.head_le
    omega
  have left : own'.without entry.owns = onlyStatus process (.called call) := by
    funext cell
    by_cases isOwned : entry.owns cell = true
    · exact (if_pos isOwned).trans (onlyStatus_foreign isOwned).symm
    · rw [Bool.not_eq_true] at isOwned
      rw [without_foreign isOwned, owned.only cell isOwned]
  have pushed : ChainList chain (entry :: entries)
      ((part.put (.pointer (headOffset chain)) entry.offset).gain own' entry.owns) := by
    apply list.push (by rw [isKey, isChain]) fresh
    apply list.list.push foreign.record foreign.extent
    · exact (gain_foreign (not_owns_pointer headApart)).trans (Fragment.put_same _ _ _)
    · exact gain_owned owns_pointer owned.pointer
    · exact gain_owned owns_record owned.record
    · exact gain_owned owns_extent owned.extent
    · intro cell notHead notOwned
      rw [gain_foreign notOwned, Fragment.put_of_ne _ _ notHead]
  apply handOver_safe .own (.lock (.chain chain)) entry.owns
  · trivial
  · exact withChain_writable
  · simp
  rw [withChain_part, withChain_part_own, withChain_setPart_own, withChain_setPart, left]
  apply finish_safe isHead isChain pushed
  · rw [gain_foreign not_owns_table, Fragment.put_of_ne _ _ (by simp), stored]
  · exact tabulates
  · exact continued

end Finish

theorem applyCall_delete_absent {key : CString} {table : Table} (absent : table key.1 = none) :
    applyCall (.delete key) table = (.code (-1), table) := by
  simp only [applyCall, absent]

theorem applyCall_delete_present {key : CString} {table : Table} {data : Bytes}
    (present : table key.1 = some data) :
    applyCall (.delete key) table = (.code 0, Function.update table key.1 none) := by
  simp only [applyCall, present]

theorem DB.unlocks {chain : Chain} (chainoff : db.chainoff = headOffset chain) :
    db.chainoff.toNat = headOffset chain := by
  rw [chainoff, Int.toNat_natCast]

/-- `db_delete` has the effect and the result that it has on the map. -/
theorem delete_safe {post : Int → DB → Known Process → Prop} {key : CString}
    (continued : ∀ code (db' : DB), db'.chainoff = headOffset (chainOf key.1) →
      post code db' (atRest process (.effected (.code code)))) :
    LibrarySafe stops process post (dbDelete key.1) db
      (atRest process (.called (.delete key))) := by
  unfold dbDelete
  apply bind_safe
  apply findAndLock_safe .exclusive rfl (fun _ => rfl)
  · intro db' entries table part chainoff chain absent
    have applied := applyCall_delete_absent (chain.tabulates.absent absent)
    apply bind_safe
    apply pure_safe
    apply bind_safe
    apply get_safe
    apply bind_safe
    apply finish_safe (DB.unlocks chainoff) rfl chain.list chain.stored
    · rw [applied]
      exact chain.tabulates
    · rw [applied]
      exact continued _ _ chainoff
  · intro db' before entry after table part chainoff chain isKey located ptroff
    have member : entry ∈ before ++ entry :: after :=
      List.mem_append_right _ List.mem_cons_self
    have present : table key.1 = some entry.data.1 := by
      rw [← isKey]
      exact chain.tabulates.found entry member
    have applied := applyCall_delete_present present
    apply bind_safe
    apply dodelete_safe chain.list located ptroff
    intro db'' part' kept list stored
    apply bind_safe
    apply pure_safe
    apply bind_safe
    apply get_safe
    apply bind_safe
    apply finish_safe (DB.unlocks (kept.trans chainoff)) rfl list (stored.trans chain.stored)
    · rw [applied, ← isKey]
      exact chain.tabulates.remove chain.list.keys
    · rw [applied]
      exact continued _ _ (kept.trans chainoff)

theorem finishRead_safe {post : Unit → DB → Known Process → Prop} {key : CString}
    {entries : List Entry} {table : Table} {part : Part Process} {offset : Nat}
    (isHead : offset = headOffset (chainOf key.1))
    (chain : ChainPart (chainOf key.1) entries table part)
    (continued : post () db
      (atRest process (.effected (.data (table key.1))))) :
    LibrarySafe stops process post (perform (.unlock .idx offset 1)) db
      ((atRest process (.called (.fetch key))).acquire
        (.chain (chainOf key.1)) .shared part) := by
  subst isHead
  apply effectRead_safe
  · trivial
  · rw [Holdings.acquire_parts_of_ne _ (by simp)]
    exact Fragment.put_same _ _ _
  · intro ghost state valid same
    have known := valid.known same
      (show Holdings.parts _ (.lock (.chain (chainOf key.1))) (.table (chainOf key.1)) = _ by
        rw [Holdings.acquire_parts_same, chain.stored])
    have isTable : tableOn ghost.object.object (chainOf key.1) = table := Option.some.inj known
    have value : ghost.object.object key.1 = table key.1 := by
      rw [← isTable, tableOn_self]
    rw [applyCall, value]
  rw [Holdings.acquire_put_of_ne _ (by simp), atRest_put]
  apply giveLock_safe (.chain (chainOf key.1))
  · rfl
  · rfl
  · intro exclusive
    cases exclusive
  · exact continued

/-- `db_fetch` returns what the map has for the key. -/
theorem fetch_safe {post : Option Bytes → DB → Known Process → Prop} {key : CString}
    (continued : ∀ value db', post value db'
      (atRest process (.effected (.data value)))) :
    LibrarySafe stops process post (dbFetch key.1) db
      (atRest process (.called (.fetch key))) := by
  unfold dbFetch
  apply bind_safe
  apply findAndLock_safe .shared rfl (fun _ => rfl)
  · intro db' entries table part chainoff chain absent
    apply bind_safe
    apply pure_safe
    apply bind_safe
    apply get_safe
    apply bind_safe
    apply finishRead_safe (DB.unlocks chainoff) chain
    rw [chain.tabulates.absent absent]
    exact continued _ _
  · intro db' before entry after table part chainoff chain isKey located ptroff
    have member : entry ∈ before ++ entry :: after :=
      List.mem_append_right _ List.mem_cons_self
    apply bind_safe
    apply readdat_safe located.datoff (located.datlen.trans entry.datlen_eq)
    · rw [Holdings.acquire_parts_same]
      exact chain.list.list.extent entry member
    intro position
    apply bind_safe
    apply pure_safe
    apply bind_safe
    apply get_safe
    apply bind_safe
    apply finishRead_safe (DB.unlocks chainoff) chain
    have present : table key.1 = some entry.data.1 := by
      rw [← isKey]
      exact chain.tabulates.found entry member
    rw [present]
    exact continued _ _

section Store

variable {key : CString} {flag : Int} {table : Table}

/-- The flags that `db_store` accepts. -/
def KnownFlag (flag : Int) : Prop := flag = DB_INSERT ∨ flag = DB_REPLACE ∨ flag = DB_STORE

theorem unknownFlag_iff :
    (flag ≠ DB_INSERT ∧ flag ≠ DB_REPLACE ∧ flag ≠ DB_STORE) ↔ ¬ KnownFlag flag := by
  rw [KnownFlag, not_or, not_or]

theorem applyCall_store_unknown {data : CString} (unknown : ¬ KnownFlag flag) (table : Table) :
    applyCall (.store key data flag) table = (.code (-1), table) := by
  rw [applyCall, if_pos (unknownFlag_iff.mpr unknown)]

theorem applyCall_store_absent (data : CString) (known : KnownFlag flag) (absent : table key.1 = none) :
    applyCall (.store key data flag) table =
      if flag = DB_REPLACE then (.code (-1), table)
      else (.code 0, Function.update table key.1 (some data.1)) := by
  rw [applyCall, if_neg (fun unknown => unknownFlag_iff.mp unknown known), absent]

theorem applyCall_store_present (data : CString) (known : KnownFlag flag) {old : Bytes}
    (present : table key.1 = some old) :
    applyCall (.store key data flag) table =
      if flag = DB_INSERT then (.code 1, table)
      else (.code 0, Function.update table key.1 (some data.1)) := by
  rw [applyCall, if_neg (fun unknown => unknownFlag_iff.mp unknown known), present]

/-- `db_store` with a flag that it knows. -/
theorem store_safe {post : Int → DB → Known Process → Prop} {data : CString} (known : KnownFlag flag)
    (limits : ∀ failure, failure.isLimit = true → stops failure)
    (noSep : flag ≠ DB_REPLACE → ∀ byte ∈ key.1, byte ≠ SEP)
    (continued : ∀ code db', post code db'
      (atRest process (.effected (.code code)))) :
    LibrarySafe stops process post (dbStore key.1 data.1 flag) db
      (atRest process (.called (.store key data flag))) := by
  unfold dbStore
  rw [if_neg (fun unknown => unknownFlag_iff.mp unknown known)]
  by_cases outside : data.1.length + 1 < DATLEN_MIN ∨ data.1.length + 1 > DATLEN_MAX
  · simp only [outside, if_true]
    apply bind_safe
    exact fail_safe (limits _ rfl)
  simp only [outside, if_false]
  rw [not_or, Nat.not_lt, Nat.not_lt] at outside
  apply bind_safe
  apply findAndLock_safe .exclusive rfl (fun _ => rfl)
  · intro db' entries table part chainoff chain absent
    have applied := applyCall_store_absent data known (chain.tabulates.absent absent)
    apply bind_safe
    apply storeAbsent_safe limits chainoff chain.list.list noSep outside.2
    · intro replace
      rw [if_pos replace] at applied
      apply bind_safe
      apply get_safe
      apply bind_safe
      apply finish_safe (DB.unlocks chainoff) rfl chain.list chain.stored
      · rw [applied]
        exact chain.tabulates
      · rw [applied]
        exact continued _ _
    · intro notReplace db'' entry own' kept isKey isData owned foreign
      rw [if_neg notReplace] at applied
      have fresh : ∀ other ∈ entries, other.body.key ≠ entry.body.key := by
        rw [isKey]
        exact absent
      apply bind_safe
      apply get_safe
      apply bind_safe
      apply finishNew_safe (DB.unlocks (kept.trans chainoff)) rfl chain.list chain.stored isKey
        fresh owned foreign
      · rw [applied, ← isKey, ← isData]
        exact chain.tabulates.push fresh
      · rw [applied]
        exact continued _ _
  · intro db' before entry after table part chainoff chain isKey located ptroff
    have member : entry ∈ before ++ entry :: after :=
      List.mem_append_right _ List.mem_cons_self
    have present : table key.1 = some entry.data.1 := by
      rw [← isKey]
      exact chain.tabulates.found entry member
    have applied := applyCall_store_present data known present
    apply bind_safe
    have noSepPresent : ∀ byte ∈ key.1, byte ≠ SEP := by
      rw [← isKey]
      exact entry.body.noSep
    apply storePresent_safe limits chain.list chainoff located ptroff noSepPresent outside.2
    · intro insert
      rw [if_pos insert] at applied
      apply bind_safe
      apply get_safe
      apply bind_safe
      apply finish_safe (DB.unlocks chainoff) rfl chain.list chain.stored
      · rw [applied]
        exact chain.tabulates
      · rw [applied]
        exact continued _ _
    · intro notInsert db'' part' entry' own' kept list stored isKey' isData owned foreign
      rw [if_neg notInsert] at applied
      have others : ∀ other ∈ before ++ after, other.body.key ≠ entry'.body.key := by
        rw [isKey', ← isKey]
        exact ListPart.not_mem_map chain.list.keys
      have removed := chain.tabulates.remove chain.list.keys
      apply bind_safe
      apply get_safe
      apply bind_safe
      apply finishNew_safe (DB.unlocks (kept.trans chainoff)) rfl list
        (stored.trans chain.stored) isKey' others owned foreign
      · have pushed := removed.push others
        rw [isKey', isKey, Function.update_idem, isData] at pushed
        rw [applied]
        exact pushed
      · rw [applied]
        exact continued _ _
    · intro notInsert db'' kept sameLength
      rw [if_neg notInsert] at applied
      let entry' : Entry :=
        { entry with
          data := data
          datlen_eq := sameLength.symm }
      have replaced : ListPart (headOffset (chainOf key.1)) (before ++ entry' :: after)
          (some (.table (chainOf key.1))) (part.put (.extent entry.body.datoff) data) :=
        chain.list.list.replaceData rfl rfl (Fragment.put_same _ _ _)
          fun _ different => Fragment.put_of_ne _ _ different
      have sameBody : entry'.body = entry.body := rfl
      have list := chain.list.replaceData sameBody replaced
      have tabulates := chain.tabulates.replaceData chain.list.keys sameBody
      apply bind_safe
      apply get_safe
      apply bind_safe
      apply finish_safe (DB.unlocks (kept.trans chainoff)) rfl list
      · rw [Fragment.put_of_ne _ _ (by simp), chain.stored]
      · rw [applied, ← isKey]
        exact tabulates
      · rw [applied]
        exact continued _ _

end Store

/-- A call takes effect once, or it changes nothing whatever the map is and has
not taken effect yet. -/
theorem execute_safe {post : Return → DB → Known Process → Prop} {call : Call}
    (limits : call.Stores → ∀ failure, failure.isLimit = true → stops failure)
    (sound : call.Sound)
    (effected : ∀ result db', post result db' (atRest process (.effected result)))
    (untouched : ∀ result db', (∀ table, applyCall call table = (result, table)) →
      post result db' (atRest process (.called call))) :
    LibrarySafe stops process post call.execute db (atRest process (.called call)) := by
  cases call with
  | store key data flag =>
      apply bind_safe
      by_cases known : KnownFlag flag
      · apply store_safe known (limits trivial)
        · intro notReplace
          apply sound
          rcases known with insert | replace | store
          · exact Or.inl insert
          · exact absurd replace notReplace
          · exact Or.inr store
        · exact fun code db' => effected (.code code) db'
      · rw [dbStore, if_pos (unknownFlag_iff.mpr known)]
        exact untouched _ _ fun table => applyCall_store_unknown known table
  | delete key =>
      apply bind_safe
      apply delete_safe
      exact fun code db' _ => effected (.code code) db'
  | fetch key =>
      apply bind_safe
      apply fetch_safe
      exact fun value db' => effected (.data value) db'

/-- The calls that a process makes one after the other. -/
theorem runCalls_safe {calls : List Call}
    (limits : ∀ call ∈ calls, call.Stores → ∀ failure, failure.isLimit = true → stops failure)
    (sound : ∀ call ∈ calls, call.Sound) {post : List Return → DB → Known Process → Prop}
    (continued : ∀ results db', results.length = calls.length →
      post results db' (atRest process .idle)) :
    LibrarySafe stops process post (runCalls calls) db (atRest process .idle) := by
  induction calls generalizing db post with
  | nil => exact continued [] db rfl
  | cons call calls hypothesis =>
      have soundRest : ∀ other ∈ calls, other.Sound := fun other member =>
        sound other (List.mem_cons_of_mem _ member)
      have rest : ∀ result db', LibrarySafe stops process (fun results db'' there =>
          LibrarySafe stops process post (pure (result :: results)) db'' there) (runCalls calls) db'
          (atRest process .idle) := by
        intro result db'
        apply hypothesis (fun other member => limits other (List.mem_cons_of_mem _ member))
          soundRest
        intro results db'' length
        apply continued
        rw [List.length_cons, length, List.length_cons]
      rw [runCalls]
      apply bind_safe
      apply invoke_safe
      apply bind_safe
      apply execute_safe (limits call List.mem_cons_self) (sound call List.mem_cons_self)
      · intro result db'
        apply bind_safe
        apply respond_safe
        · exact Fragment.put_same _ _ _
        · rw [atRest_put]
          apply bind_safe
          exact rest result db'
      · intro result db' unchanged
        apply bind_safe
        apply effectRead_safe
        · trivial
        · exact Fragment.put_same _ _ _
        · exact fun ghost state valid same => unchanged ghost.object.object
        rw [atRest_put]
        apply respond_safe
        · exact Fragment.put_same _ _ _
        · rw [atRest_put]
          apply bind_safe
          exact rest result db'

end

end Apue.Database
