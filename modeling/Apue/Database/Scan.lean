import Apue.Database.Contents

/-! # Scanning a database

`db_nextrec` knows nothing of the hash chains. It goes through the records in
the order of the index file and passes over those with a blank key.
-/

namespace Apue.Database

open Apue.Foundation Ascii

/-- What a scan makes of an item of the index file. -/
def Disk.scanned (disk : Disk) : IndexItem → Option (Bytes × Bytes)
  | .record _ body =>
      if isBlank body.key then none
      else (disk.data body.datoff).map fun data => (body.key, data.1)
  | _ => none

/-- The data of every record that is not blank can be read. -/
def Disk.Readable (disk : Disk) : Prop :=
  ∀ stored body, .record stored body ∈ disk.idx → isBlank body.key = false →
    ∃ data, disk.data body.datoff = some data ∧ body.datlen = data.1.length + 1

/-- A scan has passed the items `before` and comes to the records `after`. -/
structure ScanAt (disk : Disk) (before after : List IndexItem) (db : DB) : Prop where
  split : disk.idx = before ++ after
  position : db.idxPosition = (encodeAll IndexItem.encode before).length
  records : ∀ item ∈ after, item.kind = .record
  few : after.length ≤ PTR_MAX

section

variable {disk : Disk} {db : DB} {state : State Unit} {before after : List IndexItem}

theorem ScanAt.item {item : IndexItem} (place : ScanAt disk before (item :: after) db) :
    disk.item db.idxPosition = some item := by
  rw [Disk.item, place.split, place.position]
  exact itemAt_split IndexItem.encode_nonempty _ _ _

theorem ScanAt.pass {stored : Pointer} {body : Body} {next : Nat}
    (place : ScanAt disk before (.record stored body :: after) db) :
    ScanAt disk (before ++ [.record stored body]) after
      (db.atRecord db.idxPosition next body) where
  split := by
    rw [place.split, List.append_assoc]
    rfl
  position := by
    rw [encodeAll_append, List.length_append, encodeAll_cons, List.length_append,
      encode_record_length, ← place.position, DB.atRecord]
    simp only [encodeAll, List.flatMap_nil, List.length_nil]
    omega
  records := fun item member => place.records item (List.mem_cons_of_mem _ member)
  few := (Nat.le_succ _).trans place.few

theorem alone_nextNonblank {post : Bool → DB → State Unit → Prop} {bound : Nat}
    (files : state.files = disk.files) (place : ScanAt disk before after db)
    (enough : after.length < bound)
    (ended : ∀ db', ScanAt disk (before ++ after) [] db' →
      (∀ item ∈ after, disk.scanned item = none) → post false db' state)
    (found : ∀ db' skipped stored body rest, after = skipped ++ .record stored body :: rest →
      (∀ item ∈ skipped, disk.scanned item = none) → isBlank body.key = false →
      ScanAt disk (before ++ (skipped ++ [.record stored body])) rest db' →
      db'.idxbuf = body.key → db'.datoff = body.datoff → db'.datlen = body.datlen →
        post true db' state) :
    Alone post (nextNonblank bound) db state := by
  induction after generalizing before bound db with
  | nil =>
      cases bound with
      | zero => exact absurd enough (Nat.not_lt_zero _)
      | succ bound =>
          have atEnd : db.idxPosition = disk.indexFile.length := by
            rw [place.position, Disk.indexFile, place.split, List.append_nil]
          apply alone_bind
          apply alone_readidx_end files atEnd
          intro db' kept
          apply alone_pure
          apply ended
          · rw [List.append_nil]
            exact { place with position := kept.trans place.position }
          · exact fun item member => absurd member List.not_mem_nil
  | cons item after hypothesis =>
      cases bound with
      | zero => exact absurd enough (Nat.not_lt_zero _)
      | succ bound =>
          have kind := place.records item List.mem_cons_self
          cases item with
          | head pointer => cases kind
          | newline => cases kind
          | record stored body =>
              have notNegative : ¬ ((stored.1 : Int) < 0) := by omega
              apply alone_bind
              apply alone_readidx files place.item (Or.inr ⟨rfl, rfl⟩)
              rw [if_neg notNegative]
              apply alone_bind
              apply alone_get
              have isKey : (db.atRecord db.idxPosition stored.1 body).idxbuf.all (· == SPACE) =
                  isBlank body.key := rfl
              rw [isKey]
              by_cases blank : isBlank body.key = true
              · rw [if_pos blank]
                have nothing : disk.scanned (.record stored body) = none := if_pos blank
                apply hypothesis place.pass (Nat.lt_of_succ_lt_succ enough)
                · intro db' place' rest
                  apply ended
                  · rwa [List.append_assoc] at place'
                  · exact List.forall_mem_cons.mpr ⟨nothing, rest⟩
                · intro db' skipped stored' body' rest isRest passed notBlank place'
                  apply found db' (.record stored body :: skipped) stored' body' rest
                  · rw [isRest]
                    rfl
                  · exact List.forall_mem_cons.mpr ⟨nothing, passed⟩
                  · exact notBlank
                  · rwa [List.append_assoc] at place'
              · rw [if_neg blank]
                rw [Bool.not_eq_true] at blank
                apply alone_pure
                exact found _ [] stored body after rfl (fun _ member => absurd member List.not_mem_nil) blank
                  place.pass rfl rfl rfl

theorem unlock_lock (unlocked : Unlocked state) (kind : LockKind) :
    setLocks (setLocks state () .idx FREE_OFF 1 (some kind)) () .idx FREE_OFF 1 none =
      state := by
  rcases state with ⟨files, locks, history⟩
  cases unlocked
  simp only [setLocks, State.mk.injEq, true_and, and_true]
  funext process file byte
  cases file <;> simp

/-- `db_nextrec` returns the next record that is not blank. -/
theorem alone_nextrec {post : Option (Bytes × Bytes) → DB → State Unit → Prop}
    (files : state.files = disk.files) (unlocked : Unlocked state) (readable : disk.Readable)
    (place : ScanAt disk before after db)
    (ended : ∀ db', ScanAt disk (before ++ after) [] db' →
      (∀ item ∈ after, disk.scanned item = none) → post none db' state)
    (found : ∀ db' skipped item pair rest, after = skipped ++ item :: rest →
      (∀ item ∈ skipped, disk.scanned item = none) → disk.scanned item = some pair →
      ScanAt disk (before ++ (skipped ++ [item])) rest db' → post (some pair) db' state) :
    Alone post dbNextrec db state := by
  unfold dbNextrec
  apply alone_bind
  apply alone_lock
  apply alone_bind
  apply alone_nextNonblank
  · exact files
  · exact place
  · exact Nat.lt_succ_of_le place.few
  · intro db' place' nothing
    apply alone_bind
    apply alone_pure
    apply alone_bind
    apply alone_unlock
    rw [unlock_lock unlocked]
    exact alone_pure (ended db' place' nothing)
  · intro db' skipped stored body rest isAfter nothing notBlank place' isKey isDatoff isDatlen
    have member : .record stored body ∈ disk.idx := by
      rw [place.split, isAfter]
      simp
    rcases readable stored body member notBlank with ⟨data, isData, length⟩
    have scanned : disk.scanned (.record stored body) = some (body.key, data.1) := by
      rw [Disk.scanned, notBlank, isData]
      rfl
    simp only [if_true]
    apply alone_bind
    apply alone_get
    apply alone_bind
    apply alone_readdat
    · exact files
    · exact isData
    · exact isDatoff
    · rw [isDatlen, length]
    intro position
    apply alone_bind
    apply alone_pure
    apply alone_bind
    apply alone_unlock
    rw [unlock_lock unlocked, isKey]
    apply alone_pure
    apply found _ skipped _ _ rest isAfter nothing scanned
    exact
      { split := place'.split
        position := place'.position
        records := place'.records
        few := place'.few }

/-- Calls of `db_nextrec` with no other call in between. -/
def nextrecs : Nat → Library (List (Option (Bytes × Bytes)))
  | 0 => return []
  | count + 1 => do
      let result ← dbNextrec
      let results ← nextrecs count
      return result :: results

def scan (count : Nat) : Library (List (Option (Bytes × Bytes))) := do
  dbRewind
  nextrecs count

theorem alone_nextrecs {count : Nat} (files : state.files = disk.files)
    (unlocked : Unlocked state) (readable : disk.Readable)
    (place : ScanAt disk before after db) :
    Alone (fun results _ last =>
      results = (List.range count).map (fun i => (after.filterMap disk.scanned)[i]?) ∧
        last = state) (nextrecs count) db state := by
  induction count generalizing before after db with
  | zero => exact alone_pure ⟨rfl, rfl⟩
  | succ count hypothesis =>
      apply alone_bind
      apply alone_nextrec files unlocked readable place
      · intro db' place' nothing
        have passed : after.filterMap disk.scanned = [] :=
          List.filterMap_eq_nil_iff.mpr nothing
        apply alone_bind
        apply (hypothesis place').mono
        rintro results db'' last ⟨rfl, rfl⟩
        apply alone_pure
        rw [passed, List.range_succ_eq_map, List.map_cons, List.map_map]
        exact ⟨rfl, rfl⟩
      · intro db' skipped item pair rest isAfter nothing scanned place'
        have passed : after.filterMap disk.scanned = pair :: rest.filterMap disk.scanned := by
          rw [isAfter, List.filterMap_append, List.filterMap_eq_nil_iff.mpr nothing,
            List.nil_append, List.filterMap_cons_some scanned]
        apply alone_bind
        apply (hypothesis place').mono
        rintro results db'' last ⟨rfl, rfl⟩
        apply alone_pure
        rw [passed, List.range_succ_eq_map, List.map_cons, List.map_map]
        exact ⟨rfl, rfl⟩

end

/-! ## What a scan comes to -/

/-- The records that a scan of the files returns, in the order of the index file. -/
def Disk.pairs (disk : Disk) : List (Bytes × Bytes) := disk.idx.filterMap disk.scanned

section

variable {disk : Disk} {table : Table} {db : DB} {state : State Unit}

theorem Disk.item_of_mem {item : IndexItem} (member : item ∈ disk.idx) :
    ∃ offset, disk.item offset = some item := by
  rcases List.append_of_mem member with ⟨before, after, split⟩
  refine ⟨(encodeAll IndexItem.encode before).length, ?_⟩
  rw [Disk.item, split]
  exact itemAt_split IndexItem.encode_nonempty _ _ _

theorem Contents.readable (contents : Contents disk table) : disk.Readable := by
  intro stored body member notBlank
  rcases Disk.item_of_mem member with ⟨offset, found⟩
  rcases contents.complete offset stored body found with blank | ⟨number, entry, among, _, rfl⟩
  · cases blank.symm.trans notBlank
  · exact ⟨entry.data, (contents.list number).extent entry among, entry.datlen_eq⟩

/-- After `db_rewind` a scan is in front of all records, and there may be one more
than the database has. -/
theorem Contents.rewound_more (contents : Contents disk table) {now : Disk}
    {more : List IndexItem} (split : now.idx = disk.idx ++ more)
    (kinds : ∀ item ∈ more, item.kind = .record) (atMostOne : more.length ≤ 1) (db : DB) :
    ∃ heads records, ScanAt now heads records
      { db with idxPosition := recordsOffset, idxoff := recordsOffset } ∧
        records.filterMap now.scanned = now.pairs := by
  rcases contents.shaped.split with ⟨heads, records, length, isDisk⟩
  rw [isDisk, List.append_assoc] at split
  refine ⟨_, _, ⟨split, ?_, ?_, ?_⟩, ?_⟩
  · rw [encodeAll_heads, length]
    rfl
  · intro item member
    rcases List.mem_append.mp member with isRecord | isMore
    · rcases List.mem_map.mp isRecord with ⟨record, _, rfl⟩
      rfl
    · exact kinds item isMore
  · have offsets : ((placed encodeRecord recordsOffset records).map Prod.fst).length ≤
        PTR_MAX - 1 := by
      apply length_le_of_nodup (placed_nodup (fun _ => IndexItem.encode_nonempty _) _ _)
      · intro offset member
        rcases List.mem_map.mp member with ⟨place, among, rfl⟩
        have behind := ((mem_placed fun _ => IndexItem.encode_nonempty _).mp among).1
        exact Nat.lt_of_lt_of_le (by decide) behind
      · intro offset member
        rcases List.mem_map.mp member with ⟨⟨offset, pointer, body⟩, among, rfl⟩
        exact contents.near offset pointer body ((item_eq_record_iff length isDisk).mpr among)
    have same : ((placed encodeRecord recordsOffset records).map Prod.snd).length =
        records.length := congrArg List.length (placed_map_snd _ _)
    have one : PTR_MAX - 1 + 1 = PTR_MAX := rfl
    rw [List.length_map] at offsets same
    rw [List.length_append, List.length_map, ← same]
    omega
  · have nothing : (heads.map IndexItem.head ++ [IndexItem.newline]).filterMap now.scanned = [] := by
      rw [List.filterMap_eq_nil_iff]
      intro item member
      rcases List.mem_append.mp member with isHead | isNewline
      · rcases List.mem_map.mp isHead with ⟨pointer, _, rfl⟩
        rfl
      · rw [List.mem_singleton.mp isNewline]
        rfl
    rw [Disk.pairs, split, List.filterMap_append (l := List.map _ heads ++ _), nothing,
      List.nil_append]

theorem Contents.rewound (contents : Contents disk table) (db : DB) : ∃ heads records,
    ScanAt disk heads records { db with idxPosition := recordsOffset, idxoff := recordsOffset } ∧
      records.filterMap disk.scanned = disk.pairs :=
  contents.rewound_more (List.append_nil _).symm (fun _ member => nomatch member)
    (Nat.zero_le 1) db

theorem Contents.entry_of_scanned (contents : Contents disk table) {offset : Nat}
    {item : IndexItem} {pair : Bytes × Bytes} (found : disk.item offset = some item)
    (scanned : disk.scanned item = some pair) :
    isBlank pair.1 = false ∧ ∃ entry ∈ contents.chain (chainOf pair.1), entry.offset = offset ∧
      entry.body.key = pair.1 ∧ entry.data.1 = pair.2 := by
  cases item with
  | head pointer => cases scanned
  | newline => cases scanned
  | record stored body =>
      rw [Disk.scanned] at scanned
      by_cases blank : isBlank body.key = true
      · rw [if_pos blank] at scanned
        cases scanned
      rw [if_neg blank, Option.map_eq_some_iff] at scanned
      rcases scanned with ⟨value, isValue, rfl⟩
      rcases contents.complete offset stored body found with isBlank |
        ⟨number, entry, among, isOffset, rfl⟩
      · exact absurd isBlank blank
      · rw [(contents.list number).extent entry among] at isValue
        cases isValue
        rw [contents.hashes number entry among]
        exact ⟨Bool.eq_false_of_not_eq_true blank, entry, among, isOffset, rfl, rfl⟩

/-- What a scan returns is what the map has for keys that are not blank. -/
theorem Contents.mem_pairs (contents : Contents disk table) {key data : Bytes} :
    (key, data) ∈ disk.pairs ↔ isBlank key = false ∧ table key = some data := by
  rw [Disk.pairs, List.mem_filterMap, contents.table_eq_some]
  constructor
  · rintro ⟨item, member, scanned⟩
    rcases Disk.item_of_mem member with ⟨offset, found⟩
    rcases contents.entry_of_scanned found scanned with ⟨notBlank, entry, among, _, isKey, isData⟩
    exact ⟨notBlank, entry, among, isKey, isData⟩
  · rintro ⟨notBlank, entry, among, rfl, rfl⟩
    rcases (contents.list _).record entry among with ⟨pointer, found⟩
    refine ⟨_, mem_of_itemAt found, ?_⟩
    rw [Disk.scanned, notBlank, (contents.list _).extent entry among]
    rfl

theorem Contents.pairs_nodup (contents : Contents disk table) : disk.pairs.Nodup := by
  have places : disk.idx = (placed IndexItem.encode 0 disk.idx).map Prod.snd :=
    (placed_map_snd 0 disk.idx).symm
  have distinct := placed_nodup IndexItem.encode_nonempty 0 disk.idx
  rw [List.Nodup, List.pairwise_map] at distinct
  rw [Disk.pairs, places, List.filterMap_map, List.Nodup, List.pairwise_filterMap]
  apply distinct.imp_of_mem
  rintro ⟨offset, item⟩ ⟨offset', item'⟩ member member' different pair scanned pair' scanned' rfl
  have found := ((mem_placed IndexItem.encode_nonempty).mp member).2
  have found' := ((mem_placed IndexItem.encode_nonempty).mp member').2
  rcases contents.entry_of_scanned found scanned with ⟨_, entry, among, isOffset, isKey, _⟩
  rcases contents.entry_of_scanned found' scanned' with ⟨_, entry', among', isOffset', isKey', _⟩
  have same : entry = entry' :=
    List.inj_on_of_nodup_map (contents.keys _) among among' (isKey.trans isKey'.symm)
  apply different
  rw [same, isOffset'] at isOffset
  exact isOffset.symm

end

theorem Ghost.Resting.unlocked_state {ghost : Ghost Unit} {state : State Unit}
    (resting : ghost.Resting) (valid : Valid ghost state) : Unlocked state := by
  rw [Unlocked, valid.locks]
  funext process file byte
  rcases resting process with ⟨pending, there⟩
  have free : ∀ name, ghost.ledger.held process name = none := by
    intro name
    exact congrFun (congrArg Holdings.held there) name
  rw [lockTable]
  cases lockOf file byte with
  | none => rfl
  | some name => rw [Option.bind_some, free, Option.map_none]

/-- A call that puts no key into the database that its files cannot tell from
something else: one with a separator, or one that is all blank. -/
def Call.Usable (call : Call) : Prop :=
  call.Inserts → call.NoSeparator ∧ isBlank call.key = false

theorem Call.Usable.sound {call : Call} (usable : call.Usable) : call.Sound :=
  fun inserts => (usable inserts).1

/-- What a session leaves for the calls that come after it. -/
structure Left (calls : List Call) (disk : Disk) (state : State Unit) where
  contents : Contents disk (AtomicObject.finalObject applyCall calls emptyTable)
  files : state.files = disk.files
  unlocked : Unlocked state
  nonblank : ∀ key, AtomicObject.finalObject applyCall calls emptyTable key ≠ none →
    isBlank key = false

section

variable {calls : List Call} {idx dat : Bytes} {returns : List Return} {db : DB}
  {last : State Unit}

theorem runSession_left (usable : ∀ call ∈ calls, call.Usable)
    (ran : runSession calls idx dat = .ok ((returns, db), last)) :
    ∃ disk, Nonempty (Left calls disk last) := by
  rcases runSession_ends (fun call member => (usable call member).sound) ran with
    ⟨_, ghost, valid, idle, object⟩
  have resting := resting_of_idle idle
  rcases valid.contents resting with ⟨contents⟩
  rw [object] at contents
  refine ⟨ghost.disk, ⟨contents, valid.files, resting.unlocked_state valid, ?_⟩⟩
  apply finalObject_keys
  · exact fun call member inserts => (usable call member inserts).2
  · exact fun key there => absurd rfl there

theorem Left.mem_pairs {disk : Disk} (left : Left calls disk last) {key data : Bytes} :
    (key, data) ∈ disk.pairs ↔
      AtomicObject.finalObject applyCall calls emptyTable key = some data := by
  rw [left.contents.mem_pairs]
  constructor
  · exact And.right
  · intro present
    exact ⟨left.nonblank key (by rw [present]; simp), present⟩

theorem Left.scan {disk : Disk} (left : Left calls disk last) (db : DB) (count : Nat) :
    Alone (fun results _ after => results = (List.range count).map (fun i => disk.pairs[i]?) ∧
      after = last) (scan count) db last := by
  rcases left.contents.rewound db with ⟨heads, records, place, same⟩
  rw [← same]
  apply alone_bind
  apply alone_bind
  apply alone_lseekIdx
  apply alone_modify
  exact alone_nextrecs left.files left.unlocked left.contents.readable place

/-- Whatever the session did, a scan returns every pair of the map once, and then
nothing any more. -/
theorem scan_of_calls (usable : ∀ call ∈ calls, call.Usable)
    (ran : runSession calls idx dat = .ok ((returns, db), last)) :
    ∃ pairs : List (Bytes × Bytes), pairs.Nodup ∧
      (∀ key data, (key, data) ∈ pairs ↔
        AtomicObject.finalObject applyCall calls emptyTable key = some data) ∧
      ∀ count, ∃ db' after, runAlone (scan count) db last =
        .ok (((List.range count).map fun i => pairs[i]?, db'), after) := by
  rcases runSession_left usable ran with ⟨disk, ⟨left⟩⟩
  refine ⟨disk.pairs, left.contents.pairs_nodup, fun key data => left.mem_pairs, fun count => ?_⟩
  rcases left.scan db count with ⟨results, db', after, ran', rfl, _⟩
  exact ⟨db', after, ran'⟩

/-- `db_fetch` and `db_delete` come back from every database that a session of
usable calls left, whatever their keys are, and so does a scan, which returns
what `db_fetch` finds. -/
theorem later_calls_return (usable : ∀ call ∈ calls, call.Usable)
    (ran : runSession calls idx dat = .ok ((returns, db), last)) :
    (∀ later : List Call, (∀ call ∈ later, ¬ call.Stores) → ∃ results db' after,
      runAlone (runCalls later) db last = .ok ((results, db'), after)) ∧
    ∃ pairs : List (Bytes × Bytes),
      (∀ count, ∃ db' after, runAlone (scan count) db last =
        .ok (((List.range count).map fun i => pairs[i]?, db'), after)) ∧
      ∀ key value db' after, runAlone (dbFetch key) db last = .ok ((some value, db'), after) →
        (key, value) ∈ pairs := by
  constructor
  · intro later reads
    rcases runSession_ends (fun call member => (usable call member).sound) ran with
      ⟨_, ghost, valid, idle, _⟩
    have safe : LibrarySafe (fun _ => False) () (fun _ _ _ => True) (runCalls later) db
        (atRest () .idle) := by
      apply runCalls_safe
      · exact fun call member stores => absurd stores (reads call member)
      · intro call member inserts
        cases call with
        | store key data flag => exact absurd trivial (reads _ member)
        | delete key => exact absurd inserts id
        | fetch key => exact absurd inserts id
      · exact fun _ _ _ => trivial
    rw [← idle] at safe
    rcases alone_of_safe valid safe with ⟨results, db', after, ran', _⟩
    exact ⟨results, db', after, ran'⟩
  · rcases runSession_left usable ran with ⟨disk, ⟨left⟩⟩
    refine ⟨disk.pairs, fun count => ?_, fun key value db' after fetched => ?_⟩
    · rcases left.scan db count with ⟨results, db', after, ran', rfl, _⟩
      exact ⟨db', after, ran'⟩
    · rcases alone_fetch left.contents left.contents.list left.files left.unlocked key with
        ⟨result, db'', after', ran', isResult, _⟩
      cases ran'.symm.trans fetched
      exact left.mem_pairs.mpr isResult.symm

end

/-! ## Sessions that do and that do not fill the database well -/

def storeTwo : List Call :=
  [.store ⟨[97], noNul_a⟩ ⟨[98], noNul_b⟩ DB_INSERT, .store ⟨[99], noNul_c⟩ ⟨[100], by simp⟩ DB_INSERT]

theorem storeTwo_usable : ∀ call ∈ storeTwo, call.Usable := by
  simp [storeTwo, Call.Usable, Call.NoSeparator, Call.key, SEP, isBlank, SPACE]

theorem storeTwo_ends : ∃ result, runSession storeTwo [] [] = .ok result :=
  exists_of_isOk (by decide +kernel)

theorem scan_of_calls_storeTwo : ∃ outcome last, runSession storeTwo [] [] = .ok (outcome, last) ∧
    ∃ pairs : List (Bytes × Bytes), pairs.Nodup ∧ ([97], [98]) ∈ pairs ∧
      ∀ count, ∃ db' after, runAlone (scan count) outcome.2 last =
        .ok (((List.range count).map fun i => pairs[i]?, db'), after) := by
  rcases storeTwo_ends with ⟨⟨⟨returns, db⟩, last⟩, ran⟩
  rcases scan_of_calls storeTwo_usable ran with ⟨pairs, nodup, members, scans⟩
  exact ⟨_, _, ran, pairs, nodup, (members [97] [98]).mpr (by decide), scans⟩

theorem later_calls_return_storeTwo : ∃ outcome last,
    runSession storeTwo [] [] = .ok (outcome, last) ∧
      ∃ results db' after, runAlone (runCalls [.fetch ⟨[97], noNul_a⟩, .delete ⟨[99], noNul_c⟩])
        outcome.2 last = .ok ((results, db'), after) := by
  rcases storeTwo_ends with ⟨⟨⟨returns, db⟩, last⟩, ran⟩
  have reads : ∀ call ∈ [Call.fetch ⟨[97], noNul_a⟩, .delete ⟨[99], noNul_c⟩], ¬ call.Stores := by
    simp [Call.Stores]
  exact ⟨_, _, ran, (later_calls_return storeTwo_usable ran).1 _ reads⟩

/-- A key with the separator, which cannot be read back. -/
def storeSeparator : List Call := [.store ⟨[97, 58, 98], by simp⟩ ⟨[99], noNul_c⟩ DB_INSERT]

/-- A blank key, which a scan takes for a deleted one. -/
def storeBlank : List Call := [.store ⟨[32], by simp⟩ ⟨[99], noNul_c⟩ DB_INSERT]

/-- The calls of `db_store` return for both keys. Then `db_fetch` ends the process
for the first one, and finds the second one, of which the scan returns nothing. -/
theorem later_calls_separator_and_blank :
    EndsWith (fun result => StopsWith (fun stop => stop.1 = .readidxTooManySeparators)
      (runAlone (dbFetch [97, 58, 98]) result.1.2 result.2)) (runSession storeSeparator [] []) ∧
    EndsWith (fun result =>
      EndsWith (fun fetched => fetched.1.1 = some [99]) (runAlone (dbFetch [32]) result.1.2 result.2) ∧
      EndsWith (fun scanned => scanned.1.1 = [none]) (runAlone (scan 1) result.1.2 result.2))
      (runSession storeBlank [] []) := by
  decide +kernel

end Apue.Database
