import Apue.Database.Operations

/-! # Moving records between lists

A deleted record goes from its hash chain to the free list as a blank one, and a
blank record may come back from there for a new one. In between it belongs to
the process that moves it.
-/

namespace Apue.Database

open Apue.Foundation Ascii

section

variable {Process : Type} [DecidableEq Process]

variable {stops : Failure → Prop} {process : Process} {db : DB} {here : Known Process} {share : Share LockName}

def Body.blank (body : Body) : Body where
  key := body.key.map fun _ => SPACE
  datoff := body.datoff
  datlen := body.datlen
  noNul := by
    intro byte member
    rcases List.mem_map.mp member with ⟨_, _, rfl⟩
    decide
  noSep := by
    intro byte member
    rcases List.mem_map.mp member with ⟨_, _, rfl⟩
    decide
  datlen_pos := body.datlen_pos
  datlen_le := body.datlen_le
  length_ge := by
    have := body.length_ge
    simpa [recordText] using this
  length_le := by
    have := body.length_le
    simpa [recordText] using this

theorem Body.blank_text_length (body : Body) : body.blank.text.length = body.text.length := by
  simp [text, recordText, blank]

def blankData (length : Nat) : CString :=
  ⟨List.replicate length SPACE, fun byte member => by
    rw [List.eq_of_mem_replicate member]
    decide⟩

/-- The record that a deleted one leaves behind. -/
def Entry.blank (entry : Entry) : Entry where
  offset := entry.offset
  body := entry.body.blank
  data := blankData entry.data.1.length
  behind_heads := entry.behind_heads
  offset_le := entry.offset_le
  datlen_eq := by
    rw [blankData, List.length_replicate]
    exact entry.datlen_eq

section Moves

variable {head : Nat} {before after frees : List Entry} {entry : Entry}
  {more : Option (Cell Process)} {part target : Part Process} {chain : Chain}

theorem firstCell_le (entries : List Entry) : firstCell (entries.map Entry.offset) ≤ PTR_MAX := by
  cases entries with
  | nil => exact Nat.zero_le _
  | cons entry entries => exact entry.offset_le

theorem lastField_ne (list : ListPart head (before ++ entry :: after) more part) :
    lastField head (before.map Entry.offset) ≠ entry.offset := by
  have fields := list.fields_nodup
  rw [List.map_append, List.map_cons, ← List.cons_append] at fields
  have apart := (List.nodup_append.mp fields).2.2
  exact apart _ (lastField_mem _ _) _ List.mem_cons_self

theorem not_owns_pointer {offset : Nat} (different : offset ≠ entry.offset) :
    entry.owns (Cell.pointer offset : Cell Process) = false := by
  rw [Entry.owns_eq_false]
  exact ⟨fun equal => different (Cell.pointer.inj equal), by simp, by simp⟩

theorem not_owns_table : entry.owns (Cell.table chain : Cell Process) = false := by
  rw [Entry.owns_eq_false]
  exact ⟨by simp, by simp, by simp⟩

theorem gain_owned {cell : Cell Process} (owned : entry.owns cell = true)
    {value : Value cell} (stored : part cell = some value) :
    target.gain part entry.owns cell = some value := by
  rw [Fragment.gain, if_pos owned, stored]
  rfl

theorem gain_foreign {cell : Cell Process} (foreign : entry.owns cell = false) :
    target.gain part entry.owns cell = target cell :=
  if_neg (Bool.not_eq_true _ ▸ foreign)

theorem without_foreign {cell : Cell Process} (foreign : entry.owns cell = false) :
    part.without entry.owns cell = part cell :=
  if_neg (Bool.not_eq_true _ ▸ foreign)

theorem owns_pointer : entry.owns (Cell.pointer entry.offset : Cell Process) = true :=
  Entry.owns_iff.mpr (Or.inl rfl)

theorem owns_record : entry.owns (Cell.record entry.offset : Cell Process) = true :=
  Entry.owns_iff.mpr (Or.inr (Or.inl rfl))

theorem owns_extent : entry.owns (Cell.extent entry.body.datoff : Cell Process) = true :=
  Entry.owns_iff.mpr (Or.inr (Or.inr rfl))

/-- What a part holds after its record was made blank and unlinked. -/
def blanked (part : Part Process) (entry : Entry) (next last redirect : Nat) : Part Process :=
  (((part.put (.extent entry.body.datoff) entry.blank.data).put (.pointer entry.offset)
    next).put (.record entry.offset) entry.blank.body).put (.pointer last) redirect

section Blanked

variable {next last redirect : Nat}

theorem blanked_foreign {cell : Cell Process} (notLast : cell ≠ .pointer last)
    (foreign : entry.owns cell = false) :
    blanked part entry next last redirect cell = part cell := by
  rcases Entry.owns_eq_false.mp foreign with ⟨notPointer, notRecord, notExtent⟩
  rw [blanked, Fragment.put_of_ne _ _ notLast, Fragment.put_of_ne _ _ notRecord,
    Fragment.put_of_ne _ _ notPointer, Fragment.put_of_ne _ _ notExtent]

theorem blanked_pointer (apart : last ≠ entry.offset) :
    blanked part entry next last redirect (.pointer entry.offset) = some next := by
  rw [blanked, Fragment.put_of_ne _ _ (fun equal => apart (Cell.pointer.inj equal).symm),
    Fragment.put_of_ne _ _ (by simp), Fragment.put_same]

theorem blanked_record :
    blanked part entry next last redirect (.record entry.offset) = some entry.blank.body := by
  rw [blanked, Fragment.put_of_ne _ _ (by simp), Fragment.put_same]

theorem blanked_extent :
    blanked part entry next last redirect (.extent entry.body.datoff) =
      some entry.blank.data := by
  rw [blanked, Fragment.put_of_ne _ _ (by simp), Fragment.put_of_ne _ _ (by simp),
    Fragment.put_of_ne _ _ (by simp), Fragment.put_same]

end Blanked

/-- A record that is blank and unlinked can leave its hash chain. -/
theorem deleted_list (list : ListPart head (before ++ entry :: after) more part) (next : Nat) :
    ListPart head (before ++ after) more
      ((blanked part entry next (lastField head (before.map Entry.offset))
        (firstCell (after.map Entry.offset))).without entry.owns) := by
  apply list.remove
  · rw [without_foreign (not_owns_pointer (lastField_ne list)), blanked, Fragment.put_same]
  · intro cell owned
    exact if_pos owned
  · intro cell notLast foreign
    rw [without_foreign foreign, blanked_foreign notLast foreign]

/-- It goes to the front of the free list. -/
theorem freed_list (free : FreePart frees target) {moved : Part Process}
    (apart : ∀ cell, entry.owns cell = true → target cell = none)
    (link : moved (.pointer entry.offset) = some (firstCell (frees.map Entry.offset)))
    (record : moved (.record entry.offset) = some entry.blank.body)
    (extent : moved (.extent entry.body.datoff) = some entry.blank.data) :
    FreePart (entry.blank :: frees)
      ((target.put (.pointer FREE_OFF) entry.offset).gain moved entry.owns) := by
  have headForeign : entry.owns (Cell.pointer FREE_OFF : Cell Process) = false := by
    apply not_owns_pointer
    have := entry.behind_heads
    rw [FREE_OFF]
    omega
  have pushed : ListPart FREE_OFF (entry.blank :: frees) none
      ((target.put (.pointer FREE_OFF) entry.offset).gain moved entry.owns) := by
    apply free.list.push
    · exact apart _ owns_record
    · exact apart _ owns_extent
    · exact (gain_foreign headForeign).trans (Fragment.put_same _ _ _)
    · exact gain_owned owns_pointer link
    · exact gain_owned owns_record record
    · exact gain_owned owns_extent extent
    · intro cell notHead foreign
      have notOwned : entry.owns cell = false := foreign
      rw [gain_foreign notOwned, Fragment.put_of_ne _ _ notHead]
  refine ⟨pushed, fun other member byte inside => ?_⟩
  rcases List.mem_cons.mp member with rfl | among
  · rcases List.mem_map.mp inside with ⟨_, _, rfl⟩
    rfl
  · exact free.blank other among byte inside

end Moves

/-- A process that has a hash chain for itself, and what it owns besides. -/
abbrev withChain (own : Part Process) (chain : Chain) (part : Part Process) : Known Process :=
  (Holdings.only own).acquire (.chain chain) .exclusive part

section Chains

variable {own part target : Part Process} {chain : Chain} {before after : List Entry} {entry : Entry}
  {table : Table}

/-- The same process when it also has the free list for itself. -/
abbrev withFree (own : Part Process) (chain : Chain) (part target : Part Process) :
    Known Process :=
  (withChain own chain part).acquire .free .exclusive target

omit [DecidableEq Process] in
theorem withChain_below {name : LockName} (behind : 0 < name.rank) :
    ∀ other, (withChain own chain part).held other ≠ none → other.rank < name.rank := by
  intro other holds
  by_cases isChain : other = .chain chain
  · rw [isChain]
    exact behind
  · exact absurd (Holdings.acquire_held_of_ne _ isChain _ _) holds

omit [DecidableEq Process] in
theorem withChain_free {name : LockName} (behind : 0 < name.rank) :
    (withChain own chain part).held name = none := by
  by_contra holds
  exact Nat.lt_irrefl _ (withChain_below behind name holds)

omit [DecidableEq Process] in
theorem withChain_empty {name : LockName} (different : name ≠ .chain chain) :
    (withChain own chain part).parts (.lock name) = .empty :=
  Holdings.acquire_parts_of_ne _ (fun equal => different (Share.lock.inj equal)) _ _

omit [DecidableEq Process] in
theorem withFree_part_chain :
    (withFree own chain part target).parts (.lock (.chain chain)) = part := by
  rw [withFree, Holdings.acquire_parts_of_ne _ (by simp), Holdings.acquire_parts_same]

omit [DecidableEq Process] in
theorem withFree_part_free : (withFree own chain part target).parts (.lock .free) = target :=
  Holdings.acquire_parts_same _ _ _ _

omit [DecidableEq Process] in
theorem withFree_part_own : (withFree own chain part target).parts .own = own := by
  rw [withFree, Holdings.acquire_parts_of_ne _ (by simp), withChain,
    Holdings.acquire_parts_of_ne _ (by simp)]
  rfl

omit [DecidableEq Process] in
theorem withFree_setPart_own (other : Part Process) :
    (withFree own chain part target).setPart .own other = withFree other chain part target := by
  rw [withFree, Holdings.acquire_setPart_of_ne _ (by simp), withChain,
    Holdings.acquire_setPart_of_ne _ (by simp), Holdings.only_setPart]

omit [DecidableEq Process] in
theorem withFree_writable_chain :
    (withFree own chain part target).writable (.lock (.chain chain)) := by
  rw [Holdings.writable, withFree, Holdings.acquire_held_of_ne _ (by simp)]
  exact Holdings.acquire_held_same _ _ _ _

omit [DecidableEq Process] in
theorem withFree_writable_free : (withFree own chain part target).writable (.lock .free) :=
  Holdings.acquire_held_same _ _ _ _

theorem withFree_put_chain (cell : Cell Process) (value : Value cell) :
    (withFree own chain part target).put (.lock (.chain chain)) cell value =
      withFree own chain (part.put cell value) target := by
  rw [withFree, Holdings.acquire_put_of_ne _ (by simp), Holdings.acquire_put_same]

theorem withFree_put_free (cell : Cell Process) (value : Value cell) :
    (withFree own chain part target).put (.lock .free) cell value =
      withFree own chain part (target.put cell value) :=
  Holdings.acquire_put_same _ _ _ _ _ _

omit [DecidableEq Process] in
theorem withFree_setPart_chain (other : Part Process) :
    (withFree own chain part target).setPart (.lock (.chain chain)) other =
      withFree own chain other target := by
  rw [withFree, Holdings.acquire_setPart_of_ne _ (by simp), Holdings.acquire_setPart_same]

omit [DecidableEq Process] in
theorem withFree_setPart_free (other : Part Process) :
    (withFree own chain part target).setPart (.lock .free) other =
      withFree own chain part other :=
  Holdings.acquire_setPart_same _ _ _ _ _

/-- `_db_dodelete` moves the record that was found to the free list. -/
theorem dodelete_safe {post : Unit → DB → Known Process → Prop}
    (list : ChainList chain (before ++ entry :: after) part)
    (located : db.At entry (firstCell (after.map Entry.offset)))
    (ptroff : db.ptroff = lastField (headOffset chain) (before.map Entry.offset))
    (continued : ∀ (db' : DB) part', db'.chainoff = db.chainoff →
      ChainList chain (before ++ after) part' → part' (.table chain) = part (.table chain) →
        post () db' (withChain own chain part')) :
    LibrarySafe stops process post dbDodelete db (withChain own chain part) := by
  have member : entry ∈ before ++ entry :: after :=
    List.mem_append_right _ List.mem_cons_self
  have datbuf : List.replicate (db.datlen - 1) SPACE = entry.blank.data.1 := by
    rw [located.datlen, entry.datlen_eq]
    rfl
  unfold dbDodelete
  apply bind_safe
  apply modify_safe
  apply bind_safe
  apply modify_safe
  apply bind_safe
  apply takeLock_safe .free .exclusive (withChain_below (by decide))
  rintro target ⟨frees, free⟩ disjoint
  apply bind_safe
  apply get_safe
  apply bind_safe
  apply get_safe
  simp only [datbuf, located.datoff]
  apply bind_safe
  apply writedat_set_safe (.lock (.chain chain)) withFree_writable_chain
  · rw [withFree_part_chain]
    exact list.list.extent entry member
  · exact List.length_replicate
  intro position
  rw [withFree_put_chain]
  apply bind_safe
  apply readptr_safe (.lock .free)
  · rw [withFree_part_free]
    exact free.list.linked.first
  apply bind_safe
  apply get_safe
  apply bind_safe
  apply get_safe
  apply bind_safe
  apply get_safe
  simp only [located.idxoff, located.idxbuf]
  have notLast := lastField_ne list.list
  apply bind_safe
  apply writeidx_set_safe (.lock (.chain chain)) withFree_writable_chain
  · rw [withFree_part_chain, Fragment.put_of_ne _ _ (by simp)]
    exact list.list.link
  · rw [withFree_part_chain, Fragment.put_of_ne _ _ (by simp)]
    exact list.list.record entry member
  · exact entry.body.blank_text_length
  · rfl
  · rfl
  · exact entry.blank.datlen_eq.symm
  · exact firstCell_le frees
  intro position
  rw [withFree_put_chain, withFree_put_chain]
  apply bind_safe
  apply get_safe
  apply bind_safe
  apply writeptr_fits_safe (.lock .free) withFree_writable_free
  · rw [withFree_part_free]
    exact free.list.linked.first
  · exact entry.offset_le
  intro position
  rw [withFree_put_free]
  apply bind_safe
  apply get_safe
  simp only [ptroff, located.ptrval]
  apply bind_safe
  apply writeptr_fits_safe (.lock (.chain chain)) withFree_writable_chain
  · rw [withFree_part_chain, Fragment.put_of_ne _ _ (by simp),
      Fragment.put_of_ne _ _ (fun equal => notLast (Cell.pointer.inj equal)),
      Fragment.put_of_ne _ _ (by simp)]
    exact list.list.first
  · exact firstCell_le after
  intro position
  rw [withFree_put_chain]
  change LibrarySafe stops process post _ _ (withFree own chain (blanked part entry
    (firstCell (frees.map Entry.offset)) (lastField (headOffset chain)
      (before.map Entry.offset)) (firstCell (after.map Entry.offset))) _)
  apply handOver_safe (.lock (.chain chain)) (.lock .free) entry.owns
  · exact withFree_writable_chain
  · exact withFree_writable_free
  · simp
  rw [withFree_part_chain, withFree_part_free, withFree_setPart_chain, withFree_setPart_free]
  apply giveLock_safe .free
  · exact withChain_free (by decide)
  · exact withChain_empty (by simp)
  · intro _
    refine ⟨_, freed_list free ?_ (blanked_pointer notLast) blanked_record blanked_extent⟩
    intro cell owned
    by_contra inside
    have missing := disjoint (.lock (.chain chain)) (by simp) cell inside
    rw [Holdings.acquire_parts_same] at missing
    exact list.list.owned owned missing
  · apply continued
    · rfl
    · exact list.remove (deleted_list list.list _)
    · rw [without_foreign not_owns_table, blanked_foreign (by simp) not_owns_table]

/-- `own'` is `own` with the cells of a record, whose chain pointer is `next`. -/
structure WithEntry (own : Part Process) (entry : Entry) (next : Nat) (own' : Part Process) :
    Prop where
  pointer : own' (.pointer entry.offset) = some next
  record : own' (.record entry.offset) = some entry.body
  extent : own' (.extent entry.body.datoff) = some entry.data
  only : ∀ cell, entry.owns cell = false → own' cell = own cell

/-- A part that a record does not belong to. -/
structure Entry.Foreign (entry : Entry) (part : Part Process) : Prop where
  record : part (.record entry.offset) = none
  extent : part (.extent entry.body.datoff) = none

theorem findSizes_safe {post : Int × Int → DB → Known Process → Prop} {keylen datlen : Nat}
    {bound head : Nat} {more : Option (Cell Process)}
    (list : ListPart head (before ++ after) more (here.parts share))
    (enough : after.length < bound)
    (missing : ∀ (db' : DB) saveoffset, db'.chainoff = db.chainoff →
      post (0, saveoffset) db' here)
    (found : ∀ (db' : DB) before' entry after', db'.chainoff = db.chainoff →
      before ++ after = before' ++ entry :: after' →
      entry.body.key.length = keylen → entry.body.datlen = datlen →
      db'.At entry (firstCell (after'.map Entry.offset)) →
        post (entry.offset, lastField head (before'.map Entry.offset)) db' here) :
    LibrarySafe stops process post (findSizes keylen datlen bound
      (lastField head (before.map Entry.offset)) (firstCell (after.map Entry.offset))) db
      here := by
  induction after generalizing before bound db with
  | nil =>
      cases bound with
      | zero => exact absurd enough (Nat.not_lt_zero _)
      | succ bound => exact missing db _ rfl
  | cons entry after hypothesis =>
      cases bound with
      | zero => exact absurd enough (Nat.not_lt_zero _)
      | succ bound =>
          have positive := Nat.lt_of_le_of_lt (Nat.zero_le _) entry.behind_heads
          have notEnd : ¬ ((entry.offset : Int) = 0) := by omega
          rw [List.map_cons, firstCell_cons, findSizes, if_neg notEnd]
          apply bind_safe
          apply readidx_entry_safe list
          apply bind_safe
          apply get_safe
          apply bind_safe
          apply get_safe
          rw [DB.atRecord_idxbuf, DB.atRecord_datlen]
          by_cases fits : entry.body.key.length = keylen ∧ entry.body.datlen = datlen
          · rw [if_pos fits]
            exact found _ before entry after rfl rfl fits.1 fits.2 (DB.atRecord_at _)
          · rw [if_neg fits]
            have whole : before ++ entry :: after = (before ++ [entry]) ++ after := by
              rw [List.append_assoc]
              rfl
            rw [whole] at list found
            have last : lastField head ((before ++ [entry]).map Entry.offset) = entry.offset :=
              lastField_concat_offset
            rw [← last]
            exact hypothesis list (Nat.lt_of_succ_lt_succ enough) missing found

/-- `_db_findfree` takes a blank record of the right sizes out of the free list,
when there is one. -/
theorem findfree_safe {post : Int → DB → Known Process → Prop} {keylen datlen : Nat}
    (missing : ∀ db' : DB, db'.chainoff = db.chainoff →
      post (-1) db' (withChain own chain part))
    (found : ∀ (db' : DB) entry next own', db'.chainoff = db.chainoff →
      entry.body.key.length = keylen → entry.body.datlen = datlen → db'.At entry next →
      WithEntry own entry next own' → entry.Foreign part →
        post 0 db' (withChain own' chain part)) :
    LibrarySafe stops process post (dbFindfree keylen datlen) db (withChain own chain part) := by
  unfold dbFindfree
  apply bind_safe
  apply takeLock_safe .free .exclusive (withChain_below (by decide))
  rintro target ⟨frees, free⟩ disjoint
  have list : ListPart FREE_OFF ([] ++ frees) none
      ((withFree own chain part target).parts (.lock .free)) := by
    rw [withFree_part_free]
    exact free.list
  apply bind_safe
  apply readptr_safe _ list.first
  apply bind_safe
  apply findSizes_safe list (Nat.lt_succ_of_le free.list.length_le)
  · intro db' saveoffset chainoff
    apply bind_safe
    apply pure_safe
    apply bind_safe
    apply giveLock_safe .free
    · exact withChain_free (by decide)
    · exact withChain_empty (by simp)
    · exact fun _ => ⟨frees, free⟩
    · exact missing db' chainoff
  · intro db' before entry after chainoff split keylen datlen located
    rw [List.nil_append] at split
    subst split
    have positive := Nat.lt_of_le_of_lt (Nat.zero_le _) entry.behind_heads
    have notEnd : ¬ ((entry.offset : Int) = 0) := by omega
    have notLast := lastField_ne free.list
    have member : entry ∈ before ++ entry :: after :=
      List.mem_append_right _ List.mem_cons_self
    simp only [notEnd, if_false]
    apply bind_safe
    apply get_safe
    apply bind_safe
    simp only [located.ptrval]
    apply writeptr_fits_safe (.lock .free) withFree_writable_free
    · rw [withFree_part_free]
      exact free.list.first
    · exact firstCell_le after
    intro position
    rw [withFree_put_free]
    apply bind_safe
    apply pure_safe
    apply bind_safe
    apply handOver_safe (.lock .free) .own entry.owns
    · exact withFree_writable_free
    · trivial
    · simp
    rw [withFree_part_free, withFree_part_own, withFree_setPart_free, withFree_setPart_own]
    apply giveLock_safe .free
    · exact withChain_free (by decide)
    · exact withChain_empty (by simp)
    · intro _
      refine ⟨before ++ after, ⟨?_, fun other among => free.blank other
        (mem_of_mem_remove among)⟩⟩
      apply free.list.remove
      · rw [without_foreign (not_owns_pointer notLast), Fragment.put_same]
      · exact fun cell owned => if_pos owned
      · intro cell different foreign
        rw [without_foreign foreign, Fragment.put_of_ne _ _ different]
    · apply found
      · exact chainoff
      · exact keylen
      · exact datlen
      · exact
          { idxbuf := located.idxbuf
            idxoff := located.idxoff
            datoff := located.datoff
            datlen := located.datlen
            ptrval := located.ptrval }
      · exact
          { pointer := by
              apply gain_owned owns_pointer
              rw [Fragment.put_of_ne _ _ (fun equal => notLast (Cell.pointer.inj equal).symm)]
              exact free.list.link
            record := by
              apply gain_owned owns_record
              rw [Fragment.put_of_ne _ _ (by simp)]
              exact free.list.record entry member
            extent := by
              apply gain_owned owns_extent
              rw [Fragment.put_of_ne _ _ (by simp)]
              exact free.list.extent entry member
            only := fun cell foreign => gain_foreign foreign }
      · have foreign : ∀ cell, entry.owns cell = true → part cell = none := by
          intro cell owned
          have missing := disjoint (.lock (.chain chain)) (by simp) cell
            (free.list.owned owned)
          rwa [Holdings.acquire_parts_same] at missing
        exact ⟨foreign _ owns_record, foreign _ owns_extent⟩

omit [DecidableEq Process] in
theorem withChain_part : (withChain own chain part).parts (.lock (.chain chain)) = part :=
  Holdings.acquire_parts_same _ _ _ _

omit [DecidableEq Process] in
theorem withChain_part_own : (withChain own chain part).parts .own = own := by
  rw [withChain, Holdings.acquire_parts_of_ne _ (by simp)]
  rfl

omit [DecidableEq Process] in
theorem withChain_writable : (withChain own chain part).writable (.lock (.chain chain)) :=
  Holdings.acquire_held_same _ _ _ _

omit [DecidableEq Process] in
theorem withChain_setPart (other : Part Process) :
    (withChain own chain part).setPart (.lock (.chain chain)) other =
      withChain own chain other :=
  Holdings.acquire_setPart_same _ _ _ _ _

omit [DecidableEq Process] in
theorem withChain_setPart_own (other : Part Process) :
    (withChain own chain part).setPart .own other = withChain other chain part := by
  rw [withChain, Holdings.acquire_setPart_of_ne _ (by simp), Holdings.only_setPart]

theorem withChain_put (cell : Cell Process) (value : Value cell) :
    (withChain own chain part).put (.lock (.chain chain)) cell value =
      withChain own chain (part.put cell value) :=
  Holdings.acquire_put_same _ _ _ _ _ _

theorem withChain_put_own (cell : Cell Process) (value : Value cell) :
    (withChain own chain part).put .own cell value = withChain (own.put cell value) chain part := by
  rw [withChain, Holdings.acquire_put_of_ne _ (by simp), Holdings.put, Holdings.only_setPart]
  rfl

theorem withEntry_put (entry : Entry) (next : Nat) :
    WithEntry own entry next
      (((own.put (.extent entry.body.datoff) entry.data).put (.pointer entry.offset) next).put
        (.record entry.offset) entry.body) where
  pointer := by rw [Fragment.put_of_ne _ _ (by simp), Fragment.put_same]
  record := Fragment.put_same _ _ _
  extent := by
    rw [Fragment.put_of_ne _ _ (by simp), Fragment.put_of_ne _ _ (by simp), Fragment.put_same]
  only := by
    intro cell foreign
    rcases Entry.owns_eq_false.mp foreign with ⟨notPointer, notRecord, notExtent⟩
    rw [Fragment.put_of_ne _ _ notRecord, Fragment.put_of_ne _ _ notPointer,
      Fragment.put_of_ne _ _ notExtent]

section Store

variable {post : Unit → DB → Known Process → Prop} {key data : CString} {first : Nat}

/-- A new record at the ends of the files, which is the first of its hash chain. -/
theorem storeAppend_safe (limits : ∀ failure, failure.isLimit = true → stops failure)
    (chainoff : db.chainoff = headOffset chain)
    (pointer : part (.pointer (headOffset chain)) = some first) (fits : first ≤ PTR_MAX)
    (noSep : ∀ byte ∈ key.1, byte ≠ SEP) (bounded : data.1.length + 1 ≤ DATLEN_MAX)
    (continued : ∀ (db' : DB) entry own', db'.chainoff = db.chainoff →
      entry.body.key = key.1 → entry.data = data → WithEntry own entry first own' →
      entry.Foreign part → post () db'
        (withChain own' chain (part.put (.pointer (headOffset chain)) entry.offset))) :
    LibrarySafe stops process post (storeAppend key.1 data.1 first) db (withChain own chain part) := by
  unfold storeAppend
  apply bind_safe
  apply writedat_append_safe (withChain_below (by decide)) (withChain_empty (by simp))
  intro datoff position freshExtent
  rw [withChain_put_own]
  apply bind_safe
  apply writeidx_append_safe (withChain_below (by decide)) (withChain_empty (by simp)) key.2 noSep
    rfl rfl (Nat.succ_pos _) bounded fits (fun _ => limits _ rfl)
  intro offset body position behind isKey isDatoff isDatlen freshRecord
  rw [withChain_put_own, withChain_put_own]
  apply bind_safe
  apply get_safe
  apply bind_safe
  apply get_safe
  simp only [chainoff]
  apply writeptr_safe (.lock (.chain chain)) withChain_writable
  · rw [withChain_part]
    exact pointer
  · exact fun _ => limits _ rfl
  intro position fitsOffset
  rw [withChain_put]
  let entry : Entry :=
    { offset := offset
      body := body
      data := data
      behind_heads := behind
      offset_le := fitsOffset
      datlen_eq := isDatlen }
  have record := freshRecord (.lock (.chain chain)) (by simp)
  have extent := freshExtent (.lock (.chain chain)) (by simp)
  rw [withChain_part] at record extent
  subst isDatoff
  exact continued _ entry _ chainoff.symm isKey rfl (withEntry_put entry first) ⟨record, extent⟩

/-- A new record in the place of a blank one of its sizes. -/
theorem storeReuse_safe {next : Nat} {own' : Part Process}
    (chainoff : db.chainoff = headOffset chain)
    (pointer : part (.pointer (headOffset chain)) = some first) (fits : first ≤ PTR_MAX)
    (noSep : ∀ byte ∈ key.1, byte ≠ SEP)
    (located : db.At entry next) (owned : WithEntry own entry next own')
    (foreign : entry.Foreign part) (keylen : entry.body.key.length = key.1.length)
    (datlen : entry.body.datlen = data.1.length + 1)
    (continued : ∀ (db' : DB) entry own', db'.chainoff = db.chainoff →
      entry.body.key = key.1 → entry.data = data → WithEntry own entry first own' →
      entry.Foreign part → post () db'
        (withChain own' chain (part.put (.pointer (headOffset chain)) entry.offset))) :
    LibrarySafe stops process post (storeReuse key.1 data.1 first) db (withChain own' chain part) := by
  have sameText : (recordText key.1 entry.body.datoff entry.body.datlen).length =
      entry.body.text.length := by
    simp only [recordText, Body.text, List.length_append, List.length_cons, keylen]
  let entry' : Entry :=
    { offset := entry.offset
      body :=
        { key := key.1
          datoff := entry.body.datoff
          datlen := entry.body.datlen
          noNul := key.2
          noSep := noSep
          datlen_pos := entry.body.datlen_pos
          datlen_le := entry.body.datlen_le
          length_ge := by rw [sameText]; exact entry.body.length_ge
          length_le := by rw [sameText]; exact entry.body.length_le }
      data := data
      behind_heads := entry.behind_heads
      offset_le := entry.offset_le
      datlen_eq := datlen }
  have sameData : data.1.length = entry.data.1.length :=
    Nat.succ.inj (datlen.symm.trans entry.datlen_eq)
  unfold storeReuse
  apply bind_safe
  apply get_safe
  simp only [located.datoff]
  apply bind_safe
  apply writedat_set_safe .own trivial
  · rw [withChain_part_own]
    exact owned.extent
  · exact sameData
  intro position
  rw [withChain_put_own]
  apply bind_safe
  apply get_safe
  simp only [located.idxoff]
  apply bind_safe
  have isKey : entry'.body.key = key.1 := rfl
  have sameBody : entry'.body.text.length = entry.body.text.length := sameText
  apply writeidx_set_safe .own trivial
  · rw [withChain_part_own, Fragment.put_of_ne _ _ (by simp)]
    exact owned.pointer
  · rw [withChain_part_own, Fragment.put_of_ne _ _ (by simp)]
    exact owned.record
  · exact sameBody
  · exact isKey
  · rfl
  · exact datlen.symm
  · exact fits
  intro position
  rw [withChain_put_own, withChain_put_own]
  apply bind_safe
  apply get_safe
  apply bind_safe
  apply get_safe
  simp only [chainoff]
  apply writeptr_fits_safe (.lock (.chain chain)) withChain_writable
  · rw [withChain_part]
    exact pointer
  · exact entry.offset_le
  intro position
  rw [withChain_put]
  have put : WithEntry own' entry' first _ := withEntry_put entry' first
  exact continued _ entry' _ chainoff.symm isKey rfl
    ⟨put.pointer, put.record, put.extent, fun cell notOwned =>
      (put.only cell notOwned).trans (owned.only cell notOwned)⟩ ⟨foreign.record, foreign.extent⟩

/-- `db_store` for a key that is not in the hash chain. -/
theorem storeAbsent_safe {post : Int → DB → Known Process → Prop} {flag : Int}
    {entries : List Entry} (limits : ∀ failure, failure.isLimit = true → stops failure)
    (chainoff : db.chainoff = headOffset chain)
    (list : ListPart (headOffset chain) entries more part)
    (noSep : flag ≠ DB_REPLACE → ∀ byte ∈ key.1, byte ≠ SEP)
    (bounded : data.1.length + 1 ≤ DATLEN_MAX)
    (refused : flag = DB_REPLACE → post (-1) db (withChain own chain part))
    (stored : flag ≠ DB_REPLACE → ∀ (db' : DB) entry own', db'.chainoff = db.chainoff →
      entry.body.key = key.1 → entry.data = data →
      WithEntry own entry (firstCell (entries.map Entry.offset)) own' →
      entry.Foreign part → post 0 db'
        (withChain own' chain (part.put (.pointer (headOffset chain)) entry.offset))) :
    LibrarySafe stops process post (storeAbsent key.1 data.1 flag) db (withChain own chain part) := by
  unfold storeAbsent
  by_cases replace : flag = DB_REPLACE
  · rw [if_pos replace]
    exact refused replace
  rw [if_neg replace]
  have pointer := list.linked.first
  apply bind_safe
  apply get_safe
  apply bind_safe
  simp only [chainoff]
  apply readptr_safe (.lock (.chain chain))
  · rw [withChain_part]
    exact pointer
  apply bind_safe
  apply findfree_safe
  · intro db' kept
    apply bind_safe
    apply storeAppend_safe limits (kept.trans chainoff) pointer (firstCell_le entries)
      (noSep replace) bounded
    intro db'' entry own' kept' isKey isData owned foreign
    exact stored replace db'' entry own' (kept'.trans kept) isKey isData owned foreign
  · intro db' entry next own' kept keylen datlen located owned foreign
    apply bind_safe
    apply storeReuse_safe (kept.trans chainoff) pointer (firstCell_le entries) (noSep replace)
      located owned foreign keylen datlen
    intro db'' entry own' kept' isKey isData owned foreign
    exact stored replace db'' entry own' (kept'.trans kept) isKey isData owned foreign

/-- `db_store` for a key that was found in the hash chain. -/
theorem storePresent_safe {post : Int → DB → Known Process → Prop} {flag : Int}
    (limits : ∀ failure, failure.isLimit = true → stops failure)
    (list : ChainList chain (before ++ entry :: after) part)
    (chainoff : db.chainoff = headOffset chain)
    (located : db.At entry (firstCell (after.map Entry.offset)))
    (ptroff : db.ptroff = lastField (headOffset chain) (before.map Entry.offset))
    (noSep : ∀ byte ∈ key.1, byte ≠ SEP) (bounded : data.1.length + 1 ≤ DATLEN_MAX)
    (refused : flag = DB_INSERT → post 1 db (withChain own chain part))
    (moved : flag ≠ DB_INSERT → ∀ (db' : DB) part' entry' own', db'.chainoff = db.chainoff →
      ChainList chain (before ++ after) part' → part' (.table chain) = part (.table chain) →
      entry'.body.key = key.1 → entry'.data = data →
      WithEntry own entry' (firstCell ((before ++ after).map Entry.offset)) own' →
      entry'.Foreign part' → post 0 db'
        (withChain own' chain (part'.put (.pointer (headOffset chain)) entry'.offset)))
    (replaced : flag ≠ DB_INSERT → ∀ db' : DB, db'.chainoff = db.chainoff →
      data.1.length + 1 = entry.body.datlen → post 0 db'
        (withChain own chain (part.put (.extent entry.body.datoff) data))) :
    LibrarySafe stops process post (storePresent key.1 data.1 flag) db (withChain own chain part) := by
  have member : entry ∈ before ++ entry :: after :=
    List.mem_append_right _ List.mem_cons_self
  unfold storePresent
  by_cases insert : flag = DB_INSERT
  · rw [if_pos insert]
    exact refused insert
  rw [if_neg insert]
  apply bind_safe
  apply get_safe
  by_cases sameLength : data.1.length + 1 = entry.body.datlen
  · have same : ¬ data.1.length + 1 ≠ db.datlen := by
      rw [located.datlen]
      exact not_not.mpr sameLength
    rw [if_neg same]
    apply bind_safe
    apply get_safe
    apply bind_safe
    simp only [located.datoff]
    apply writedat_set_safe (.lock (.chain chain)) withChain_writable
    · rw [withChain_part]
      exact list.list.extent entry member
    · exact Nat.succ.inj (sameLength.trans entry.datlen_eq)
    intro position
    rw [withChain_put]
    exact replaced insert _ rfl sameLength
  · have other : data.1.length + 1 ≠ db.datlen := by
      rw [located.datlen]
      exact sameLength
    rw [if_pos other]
    apply bind_safe
    apply dodelete_safe list located ptroff
    intro db' part' kept list' table
    have pointer := list'.list.linked.first
    have head := kept.trans chainoff
    apply bind_safe
    apply get_safe
    apply bind_safe
    simp only [head]
    apply readptr_safe (.lock (.chain chain))
    · rw [withChain_part]
      exact pointer
    apply bind_safe
    refine storeAppend_safe limits ?_ pointer (firstCell_le _) noSep bounded ?_
    · exact head
    intro db'' entry' own' kept' isKey isData owned foreign
    exact moved insert db'' part' entry' own' (kept'.trans kept) list' table isKey isData
      owned foreign

end Store

end Chains

end

end Apue.Database
