import Apue.Database.Scan

/-! # Calls in the middle of a scan

The place of a scan is the file offset of the index file, which is also that of
every other call on the same handle. A scan goes on undisturbed as long as the
calls in the middle of it leave the offset where it was.
-/

namespace Apue.Database

open Apue.Foundation Ascii

/-- What a process does that scans its database. -/
inductive ScanStep
  | nextrec
  | call (call : Call)

/-- The result has what the calls of `db_nextrec` return. -/
def scanSteps : List ScanStep → Library (List (Option (Bytes × Bytes)))
  | [] => return []
  | .nextrec :: steps => do
      let result ← dbNextrec
      let results ← scanSteps steps
      return result :: results
  | .call call :: steps => do
      let _ ← call.execute
      scanSteps steps

/-- The search for a key ends at the file offset where it began, with a result
that `also` accepts. -/
def SearchKeeps (key : Bytes) (writelock : Bool) (also : Int → DB → Prop) (db : DB)
    (state : State Unit) : Prop :=
  match runAlone (dbFindAndLock key writelock) db state with
  | .ok ((found, there), _) => there.idxPosition = db.idxPosition ∧ also found there
  | .error _ => True

instance (key : Bytes) (writelock : Bool) (also : Int → DB → Prop)
    [∀ found there, Decidable (also found there)] (db : DB) (state : State Unit) :
    Decidable (SearchKeeps key writelock also db state) :=
  match ran : runAlone (dbFindAndLock key writelock) db state with
  | .ok ((found, there), _) =>
      decidable_of_iff (there.idxPosition = db.idxPosition ∧ also found there)
        (by rw [SearchKeeps, ran])
  | .error _ => isTrue (by rw [SearchKeeps, ran]; trivial)

/-- What `db_store` has found is left without writing to the index file. -/
def StoreKeeps (length : Nat) (flag found : Int) (there : DB) : Prop :=
  if found = -1 then flag = DB_REPLACE else flag = DB_INSERT ∨ length = there.datlen

instance (length : Nat) (flag found : Int) (there : DB) :
    Decidable (StoreKeeps length flag found there) :=
  inferInstanceAs (Decidable (if found = -1 then flag = DB_REPLACE
    else flag = DB_INSERT ∨ length = there.datlen))

/-- A call that leaves the index file as it is and the file offset where it was:
it is refused for its flag, or its search ends at the offset and nothing has to
be linked or unlinked. -/
def Call.KeepsPlace (call : Call) (db : DB) (state : State Unit) : Prop :=
  match call with
  | .store key data flag => ¬ KnownFlag flag ∨
      (DATLEN_MIN ≤ data.1.length + 1 ∧ data.1.length + 1 ≤ DATLEN_MAX) ∧
        SearchKeeps key.1 true (StoreKeeps (data.1.length + 1) flag) db state
  | .delete key => SearchKeeps key.1 true (fun found _ => found = -1) db state
  | .fetch key => SearchKeeps key.1 false (fun _ _ => True) db state

instance (flag : Int) : Decidable (KnownFlag flag) :=
  inferInstanceAs (Decidable (_ ∨ _ ∨ _))

instance (call : Call) (db : DB) (state : State Unit) : Decidable (call.KeepsPlace db state) :=
  match call with
  | .store key data flag => inferInstanceAs (Decidable (¬ KnownFlag flag ∨
      (DATLEN_MIN ≤ data.1.length + 1 ∧ data.1.length + 1 ≤ DATLEN_MAX) ∧
        SearchKeeps key.1 true (StoreKeeps (data.1.length + 1) flag) db state))
  | .delete key =>
      inferInstanceAs (Decidable (SearchKeeps key.1 true (fun found _ => found = -1) db state))
  | .fetch key =>
      inferInstanceAs (Decidable (SearchKeeps key.1 false (fun _ _ => True) db state))

/-- Every call in the middle of the scan keeps the place of the scan. -/
def Undisturbed : List ScanStep → DB → State Unit → Prop
  | [], _, _ => True
  | .nextrec :: steps, db, state =>
      match runAlone dbNextrec db state with
      | .ok ((_, db'), after) => Undisturbed steps db' after
      | .error _ => True
  | .call call :: steps, db, state => call.KeepsPlace db state ∧
      match runAlone call.execute db state with
      | .ok ((_, db'), after) => Undisturbed steps db' after
      | .error _ => True

def decideUndisturbed : (steps : List ScanStep) → (db : DB) → (state : State Unit) →
    Decidable (Undisturbed steps db state)
  | [], _, _ => isTrue trivial
  | .nextrec :: steps, db, state =>
      match ran : runAlone dbNextrec db state with
      | .ok ((_, db'), after) =>
          @decidable_of_iff _ (Undisturbed steps db' after) (by rw [Undisturbed, ran])
            (decideUndisturbed steps db' after)
      | .error _ => isTrue (by rw [Undisturbed, ran]; trivial)
  | .call call :: steps, db, state =>
      match ran : runAlone call.execute db state with
      | .ok ((_, db'), after) =>
          @decidable_of_iff _ (call.KeepsPlace db state ∧ Undisturbed steps db' after)
            (by rw [Undisturbed, ran]) (@instDecidableAnd _ _ _ (decideUndisturbed steps db' after))
      | .error _ =>
          decidable_of_iff (call.KeepsPlace db state)
            (by rw [Undisturbed, ran]; exact (and_iff_left trivial).symm)

instance (steps : List ScanStep) (db : DB) (state : State Unit) :
    Decidable (Undisturbed steps db state) := decideUndisturbed steps db state

/-- The calls that may change what the map has for a key. -/
def Call.Touches (call : Call) (key : Bytes) : Prop :=
  match call with
  | .store other _ _ => other.1 = key
  | .delete other => other.1 = key
  | .fetch _ => False

section

variable {disk : Disk} {table : Table} {db : DB} {state : State Unit}

/-- A call in the middle of a scan leaves what the scan needs: the index file,
its offset, and what is stored under the other keys. -/
structure Kept (disk : Disk) (call : Call) (position : Nat) (db' : DB) (after : State Unit) :
    Prop where
  place : db'.idxPosition = position
  unlocked : Unlocked after
  files : ∃ disk' table', Nonempty (Contents disk' table') ∧ after.files = disk'.files ∧
    disk'.idx = disk.idx ∧ ∀ key data, ¬ call.Touches key → ∀ item ∈ disk.idx,
      (disk'.scanned item = some (key, data) ↔ disk.scanned item = some (key, data))

theorem Kept.refl (contents : Contents disk table) (files : state.files = disk.files)
    (unlocked : Unlocked state) {call : Call} {position : Nat} {db' : DB}
    (place : db'.idxPosition = position) : Kept disk call position db' state where
  place := place
  unlocked := unlocked
  files := ⟨disk, table, ⟨contents⟩, files, rfl, fun _ _ _ _ _ => Iff.rfl⟩

/-- Data under one key is replaced, and the scan sees the other keys as before. -/
theorem Contents.scanned_setData (contents : Contents disk table) {entry : Entry}
    (among : entry ∈ contents.chain (chainOf entry.body.key)) {new : CString}
    (size : new.1.length = entry.data.1.length) {key data : Bytes} (other : entry.body.key ≠ key)
    {item : IndexItem} (member : item ∈ disk.idx) :
    (disk.setData entry.body.datoff new).scanned item = some (key, data) ↔
      disk.scanned item = some (key, data) := by
  cases item with
  | head pointer => exact Iff.rfl
  | newline => exact Iff.rfl
  | record stored body =>
      rw [Disk.scanned, Disk.scanned]
      by_cases blank : isBlank body.key = true
      · rw [if_pos blank, if_pos blank]
      rw [if_neg blank, if_neg blank]
      by_cases isKey : body.key = key
      · rcases Disk.item_of_mem member with ⟨offset, found⟩
        have apart : body.datoff ≠ entry.body.datoff := by
          intro same
          rcases contents.complete offset stored body found with isBlank |
            ⟨number, entry', among', _, rfl⟩
          · exact blank isBlank
          · have equal := contents.apart _ _ _ _ among' among same
            rw [equal] at isKey
            exact other isKey
        have there := (contents.list _).extent entry among
        rw [Disk.data_setData there size, if_neg apart]
      · simp [isKey]

theorem alone_unlockKey {Result : Type} {result : Result}
    {post : Result → DB → State Unit → Prop} {key : Bytes} {kind : LockKind}
    (unlocked : Unlocked state) {files : File → Bytes}
    (chainoff : db.chainoff = headOffset (chainOf key))
    (continued : post result db { state with files := files }) :
    Alone post (do
        perform (.unlock .idx (← get).chainoff.toNat 1)
        return result) db { withKeyLocked state key kind with files := files } := by
  apply alone_bind
  apply alone_get
  rw [DB.unlocks chainoff]
  apply alone_bind
  apply alone_unlock
  apply alone_pure
  have same : setLocks { withKeyLocked state key kind with files := files } () .idx
      (headOffset (chainOf key)) 1 none = { state with files := files } :=
    congrArg (fun before : State Unit => { before with files := files })
      (unlock_withKeyLocked unlocked key kind)
  rw [same]
  exact continued

theorem alone_writedat_set {post : Unit → DB → State Unit → Prop} {data : Bytes} {offset : Nat}
    (continued : ∀ db' : DB, db'.idxPosition = db.idxPosition → db'.chainoff = db.chainoff →
      db'.datoff = offset → db'.datlen = data.length + 1 → db'.idxoff = db.idxoff →
      post () db' (setFile state .dat (pwrite (state.files .dat) offset (data ++ [NEWLINE])))) :
    Alone post (dbWritedat data (.set offset)) db state := by
  unfold dbWritedat
  apply alone_bind
  apply alone_lseekDat
  apply alone_bind
  apply alone_modify
  apply alone_bind
  apply alone_modify
  exact ⟨(), _, _, rfl, continued _ rfl rfl rfl rfl rfl⟩

theorem alone_delete_kept (contents : Contents disk table) (files : state.files = disk.files)
    (unlocked : Unlocked state) {key : CString}
    (keeps : (Call.delete key).KeepsPlace db state) :
    Alone (fun _ db' after => Kept disk (.delete key) db.idxPosition db' after)
      (dbDelete key.1) db state := by
  rcases alone_search contents contents.list files key.1 true with ⟨found, there, locked, ran, searched⟩
  rw [Call.KeepsPlace, SearchKeeps, ran] at keeps
  refine alone_bind ⟨found, there, locked, ran, ?_⟩
  rcases keeps with ⟨place, rfl⟩
  rw [searched.locked]
  apply alone_bind
  apply alone_pure
  apply alone_unlockKey unlocked searched.chainoff
  exact Kept.refl contents files unlocked place

theorem alone_fetch_kept (contents : Contents disk table) (files : state.files = disk.files)
    (unlocked : Unlocked state) {key : CString}
    (keeps : (Call.fetch key).KeepsPlace db state) :
    Alone (fun _ db' after => Kept disk (.fetch key) db.idxPosition db' after)
      (dbFetch key.1) db state := by
  apply (alone_fetch contents contents.list files unlocked key.1).mono
  rintro result db' after ⟨_, rfl, found, there, locked, ran, place⟩
  rw [Call.KeepsPlace, SearchKeeps, ran] at keeps
  exact Kept.refl contents files unlocked (place.trans keeps.1)

theorem alone_store_kept (contents : Contents disk table) (files : state.files = disk.files)
    (unlocked : Unlocked state) {key data : CString} {flag : Int}
    (keeps : (Call.store key data flag).KeepsPlace db state) :
    Alone (fun _ db' after => Kept disk (.store key data flag) db.idxPosition db' after)
      (dbStore key.1 data.1 flag) db state := by
  unfold dbStore
  by_cases known : KnownFlag flag
  · rw [if_neg (fun unknown => unknownFlag_iff.mp unknown known)]
    rcases keeps with unknown | ⟨limits, keeps⟩
    · exact absurd known unknown
    have inside : ¬ (data.1.length + 1 < DATLEN_MIN ∨ data.1.length + 1 > DATLEN_MAX) := by
      omega
    simp only [inside, if_false]
    rcases alone_search contents contents.list files key.1 true with ⟨found, there, locked, ran, searched⟩
    rw [SearchKeeps, ran] at keeps
    rcases keeps with ⟨place, keeps⟩
    refine alone_bind ⟨found, there, locked, ran, ?_⟩
    rw [searched.locked]
    rcases searched.outcome with ⟨rfl, absent⟩ | ⟨rfl, entry, member, next, same, located⟩
    · rw [StoreKeeps, if_pos rfl] at keeps
      apply alone_bind
      rw [if_pos (by decide), storeAbsent, if_pos keeps]
      apply alone_pure
      apply alone_unlockKey unlocked searched.chainoff
      exact Kept.refl contents files unlocked place
    · rw [StoreKeeps, if_neg (by decide), located.datlen] at keeps
      apply alone_bind
      rw [storePresent]
      by_cases insert : flag = DB_INSERT
      · rw [if_pos insert]
        apply alone_pure
        apply alone_unlockKey unlocked searched.chainoff
        exact Kept.refl contents files unlocked place
      · have length := keeps.resolve_left insert
        have size : data.1.length = entry.data.1.length :=
          Nat.succ.inj (length.trans entry.datlen_eq)
        have isDatlen : ¬ data.1.length + 1 ≠ there.datlen := by
          rw [located.datlen]
          exact not_not.mpr length
        rw [if_neg insert]
        apply alone_bind
        apply alone_get
        rw [if_neg isDatlen]
        apply alone_bind
        apply alone_get
        rw [located.datoff]
        apply alone_bind
        apply alone_writedat_set
        intro db' kept chainoff _ _ _
        apply alone_pure
        apply alone_unlockKey unlocked (chainoff.trans searched.chainoff)
        have among : entry ∈ contents.chain (chainOf entry.body.key) := by
          rw [same]
          exact member
        refine ⟨kept.trans place, unlocked, disk.setData entry.body.datoff data, _,
          contents.setData among size, ?_, rfl, ?_⟩
        · have found := (contents.list _).extent entry member
          have written := Disk.pwrite_data found size
          change Function.update state.files .dat (pwrite (state.files .dat) entry.body.datoff
            (encodeData data)) = _
          rw [files]
          exact update_files_dat written rfl
        · intro other value untouched item inside
          apply contents.scanned_setData among size _ inside
          rw [same]
          exact untouched
  · rw [if_pos (unknownFlag_iff.mpr known)]
    apply alone_pure
    exact Kept.refl contents files unlocked rfl

theorem alone_kept (contents : Contents disk table) (files : state.files = disk.files)
    (unlocked : Unlocked state) {call : Call} (keeps : call.KeepsPlace db state) :
    Alone (fun _ db' after => Kept disk call db.idxPosition db' after) call.execute db state := by
  cases call with
  | store key data flag =>
      apply alone_bind
      exact (alone_store_kept contents files unlocked keeps).mono fun _ _ _ kept => alone_pure kept
  | delete key =>
      apply alone_bind
      exact (alone_delete_kept contents files unlocked keeps).mono fun _ _ _ kept => alone_pure kept
  | fetch key =>
      apply alone_bind
      exact (alone_fetch_kept contents files unlocked keeps).mono fun _ _ _ kept => alone_pure kept

/-! ## The scan goes on -/

/-- How often a pair is still to come. -/
def Disk.toCome (disk : Disk) (after : List IndexItem) (pair : Bytes × Bytes) : Nat :=
  after.countP fun item => disk.scanned item = some pair

/-- The results have every pair at most as often as it is to come, and just as
often once the scan has come to its end. -/
def Delivers (disk : Disk) (after : List IndexItem) (steps : List ScanStep)
    (results : List (Option (Bytes × Bytes))) : Prop :=
  ∀ key data, (∀ call, .call call ∈ steps → ¬ call.Touches key) →
    results.count (some (key, data)) ≤ disk.toCome after (key, data) ∧
      (none ∈ results → results.count (some (key, data)) = disk.toCome after (key, data))

theorem Disk.toCome_none {after : List IndexItem}
    (nothing : ∀ item ∈ after, disk.scanned item = none) (pair : Bytes × Bytes) :
    disk.toCome after pair = 0 := by
  rw [toCome, List.countP_eq_zero]
  intro item member
  rw [nothing item member]
  simp

theorem Disk.toCome_next {skipped rest : List IndexItem} {item : IndexItem}
    {pair : Bytes × Bytes} (nothing : ∀ item ∈ skipped, disk.scanned item = none)
    (scanned : disk.scanned item = some pair) (other : Bytes × Bytes) :
    disk.toCome (skipped ++ item :: rest) other =
      disk.toCome rest other + if pair = other then 1 else 0 := by
  have passed := Disk.toCome_none nothing other
  rw [toCome] at passed
  rw [toCome, List.countP_append, passed, Nat.zero_add, List.countP_cons, scanned, toCome]
  simp

/-- What the next call of `db_nextrec` comes to. -/
def Next (disk : Disk) (before after : List IndexItem) (result : Option (Bytes × Bytes))
    (db' : DB) : Prop :=
  (result = none ∧ ScanAt disk (before ++ after) [] db' ∧
    ∀ item ∈ after, disk.scanned item = none) ∨
  ∃ skipped item pair rest, result = some pair ∧ after = skipped ++ item :: rest ∧
    (∀ item ∈ skipped, disk.scanned item = none) ∧ disk.scanned item = some pair ∧
    ScanAt disk (before ++ (skipped ++ [item])) rest db'

theorem Delivers.ended {after : List IndexItem} {steps : List ScanStep}
    {results : List (Option (Bytes × Bytes))}
    (nothing : ∀ item ∈ after, disk.scanned item = none) (delivers : Delivers disk [] steps results) :
    Delivers disk after (.nextrec :: steps) (none :: results) := by
  intro key data untouched
  have rest := delivers key data fun call member => untouched call (List.mem_cons_of_mem _ member)
  have done : disk.toCome [] (key, data) = 0 := rfl
  rw [done] at rest
  rw [Disk.toCome_none nothing, List.count_cons_of_ne (by simp)]
  exact ⟨rest.1, fun _ => Nat.le_zero.mp rest.1⟩

theorem Delivers.next {skipped rest : List IndexItem} {item : IndexItem} {pair : Bytes × Bytes}
    {steps : List ScanStep} {results : List (Option (Bytes × Bytes))}
    (nothing : ∀ item ∈ skipped, disk.scanned item = none)
    (scanned : disk.scanned item = some pair) (delivers : Delivers disk rest steps results) :
    Delivers disk (skipped ++ item :: rest) (.nextrec :: steps) (some pair :: results) := by
  intro key data untouched
  have later := delivers key data fun call member => untouched call (List.mem_cons_of_mem _ member)
  have first : (some pair == some (key, data)) = true ↔ pair = (key, data) := by simp
  rw [Disk.toCome_next nothing scanned, List.count_cons]
  simp only [first, List.mem_cons, reduceCtorEq, false_or]
  exact ⟨Nat.add_le_add_right later.1 _, fun isEnd => congrArg (· + _) (later.2 isEnd)⟩

theorem alone_scanSteps {steps : List ScanStep} {before after : List IndexItem}
    (contents : Contents disk table) (files : state.files = disk.files)
    (unlocked : Unlocked state) (place : ScanAt disk before after db)
    (undisturbed : Undisturbed steps db state) :
    Alone (fun results _ _ => Delivers disk after steps results) (scanSteps steps) db state := by
  induction steps generalizing disk table db state before after with
  | nil =>
      apply alone_pure
      intro key data _
      exact ⟨Nat.zero_le _, fun member => nomatch member⟩
  | cons step steps hypothesis =>
      cases step with
      | nextrec =>
          have next : Alone (fun result db' last => last = state ∧ Next disk before after result db')
              dbNextrec db state := by
            apply alone_nextrec files unlocked contents.readable place
            · exact fun db' place' nothing => ⟨rfl, Or.inl ⟨rfl, place', nothing⟩⟩
            · intro db' skipped item pair rest isAfter nothing scanned place'
              exact ⟨rfl, Or.inr ⟨skipped, item, pair, rest, rfl, isAfter, nothing, scanned, place'⟩⟩
          rcases next with ⟨result, db', last, ran, rfl, outcome⟩
          rw [Undisturbed, ran] at undisturbed
          refine alone_bind ⟨result, db', last, ran, ?_⟩
          apply alone_bind
          rcases outcome with ⟨rfl, place', nothing⟩ |
            ⟨skipped, item, pair, rest, rfl, rfl, nothing, scanned, place'⟩
          · apply (hypothesis contents files unlocked place' undisturbed).mono
            exact fun results _ _ delivers => alone_pure (delivers.ended nothing)
          · apply (hypothesis contents files unlocked place' undisturbed).mono
            exact fun results _ _ delivers => alone_pure (delivers.next nothing scanned)
      | call call =>
          rcases undisturbed with ⟨keeps, undisturbed⟩
          rcases alone_kept contents files unlocked keeps with
            ⟨result, db', between, ran, kept⟩
          rw [ran] at undisturbed
          rcases kept.files with ⟨disk', table', ⟨contents'⟩, files', index, same⟩
          have place' : ScanAt disk' before after db' :=
            { split := index.trans place.split
              position := kept.place.trans place.position
              records := place.records
              few := place.few }
          refine alone_bind ⟨result, db', between, ran, ?_⟩
          apply (hypothesis contents' files' kept.unlocked place' undisturbed).mono
          intro results _ _ delivers key data untouched
          have untouchedHere := untouched call List.mem_cons_self
          have toCome : disk'.toCome after (key, data) = disk.toCome after (key, data) := by
            apply List.countP_congr
            intro item member
            have inside : item ∈ disk.idx := by
              rw [place.split]
              exact List.mem_append_right _ member
            simpa using same key data untouchedHere item inside
          rw [← toCome]
          exact delivers key data fun other among => untouched other (List.mem_cons_of_mem _ among)

theorem Disk.toCome_pairs {records : List IndexItem}
    (same : records.filterMap disk.scanned = disk.pairs) (pair : Bytes × Bytes) :
    disk.toCome records pair = disk.pairs.count pair := by
  rw [← same, List.count_filterMap, toCome]
  apply List.countP_congr
  intro item _
  simp

end

/-! ## A scan of what a session left -/

def DB.rewound (db : DB) : DB :=
  { db with idxPosition := recordsOffset, idxoff := recordsOffset }

def scanWith (steps : List ScanStep) : Library (List (Option (Bytes × Bytes))) := do
  dbRewind
  scanSteps steps

section

variable {calls : List Call} {idx dat : Bytes} {returns : List Return} {db : DB}
  {last : State Unit} {steps : List ScanStep}

/-- A scan that no call disturbs is not ended, and it returns what is stored
under every key that no call touches: no pair twice, and every pair if it comes to
the end. -/
theorem scan_undisturbed (usable : ∀ call ∈ calls, call.Usable)
    (ran : runSession calls idx dat = .ok ((returns, db), last))
    (undisturbed : Undisturbed steps db.rewound last) :
    ∃ results db' after, runAlone (scanWith steps) db last = .ok ((results, db'), after) ∧
      ∀ key, (∀ call, .call call ∈ steps → ¬ call.Touches key) → ∀ data,
        let present := AtomicObject.finalObject applyCall calls emptyTable key = some data
        (¬ present → some (key, data) ∉ results) ∧ results.count (some (key, data)) ≤ 1 ∧
          (present → none ∈ results → results.count (some (key, data)) = 1) := by
  rcases runSession_left usable ran with ⟨disk, ⟨left⟩⟩
  rcases left.contents.rewound db with ⟨heads, records, place, same⟩
  have scanned : Alone (fun results _ _ => Delivers disk records steps results)
      (scanWith steps) db last := by
    apply alone_bind
    apply alone_bind
    apply alone_lseekIdx
    apply alone_modify
    exact alone_scanSteps left.contents left.files left.unlocked place undisturbed
  rcases scanned with ⟨results, db', after, ran', delivers⟩
  refine ⟨results, db', after, ran', fun key untouched data => ?_⟩
  have delivered := delivers key data untouched
  rw [Disk.toCome_pairs same] at delivered
  have once := List.nodup_iff_count_le_one.mp left.contents.pairs_nodup (key, data)
  refine ⟨fun absent => ?_, delivered.1.trans once, fun present isEnd => ?_⟩
  · rw [← left.mem_pairs, ← List.count_eq_zero] at absent
    rw [absent] at delivered
    exact List.count_eq_zero.mp (Nat.le_zero.mp delivered.1)
  · rw [delivered.2 isEnd]
    exact List.count_eq_one_of_mem left.contents.pairs_nodup (left.mem_pairs.mpr present)

end

/-! ## A scan with a call of `db_fetch` in the middle -/

/-- The key that was returned last is looked up. -/
def fetchReturned : List ScanStep :=
  [.nextrec, .call (.fetch ⟨[97], noNul_a⟩), .nextrec, .nextrec]

/-- A key is looked up that is not there. -/
def fetchMissing : List ScanStep := [.nextrec, .call (.fetch ⟨[98], noNul_b⟩), .nextrec]

/-- The key that was returned before the last one is looked up. -/
def fetchPassed : List ScanStep :=
  [.nextrec, .nextrec, .call (.fetch ⟨[97], noNul_a⟩), .nextrec]

theorem fetchReturned_undisturbed :
    EndsWith (fun result => Undisturbed fetchReturned result.1.2.rewound result.2)
      (runSession storeTwo [] []) := by
  decide +kernel

theorem scan_undisturbed_fetchReturned : ∃ outcome last results db' after,
    runSession storeTwo [] [] = .ok (outcome, last) ∧
      runAlone (scanWith fetchReturned) outcome.2 last = .ok ((results, db'), after) ∧
      results.count (some ([97], [98])) ≤ 1 := by
  rcases fetchReturned_undisturbed.exists_ok with ⟨⟨⟨returns, db⟩, last⟩, ran, undisturbed⟩
  rcases scan_undisturbed storeTwo_usable ran undisturbed with ⟨results, db', after, ran', holds⟩
  have untouched : ∀ call, .call call ∈ fetchReturned → ¬ call.Touches [97] := by
    simp [fetchReturned, Call.Touches]
  exact ⟨_, _, results, db', after, ran, ran', (holds [97] untouched [98]).2.1⟩

/-- The search for a key that is not there ends in the hash table, and the scan
ends the process, as it takes the hash table for a record. -/
theorem fetchMissing_disturbs : EndsWith
    (fun result => StopsWith (fun stop => stop.1 = .readidxIndexLength)
      (runAlone (scanWith fetchMissing) result.1.2 result.2)) (runSession storeTwo [] []) := by
  decide +kernel

/-- A key that the scan has already passed is looked up, and the scan returns a
record again. -/
example : EndsWith
    (fun result => EndsWith
      (fun scanned => scanned.1.1 = [some ([97], [98]), some ([99], [100]), some ([99], [100])])
      (runAlone (scanWith fetchPassed) result.1.2 result.2)) (runSession storeTwo [] []) := by
  decide +kernel

end Apue.Database
