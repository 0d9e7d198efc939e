import Apue.Database.Logic

/-! # One rule for every system call

What a system call of the library does to what its process knows, as long as the
process keeps to the cells that are its to read or to write.
-/

namespace Apue.Database

open Apue.Foundation

section

variable {Process : Type} [DecidableEq Process]

abbrev Known (Process : Type) : Type := Holdings LockName (@Value Process)

/-- From what the process knows, `here`, the program runs with every lock
respected, and it ends in `post` or with one of the failures `stops`. -/
abbrev Safe {Result : Type} (stops : Failure → Prop) (process : Process)
    (post : Result → Known Process → Prop) (program : Program Command Response Result) (here : Known Process) : Prop :=
  (databaseLogic Process stops).Safe process post program here

variable {stops : Failure → Prop} {ghost : Ghost Process} {state after : State Process}
  {process : Process} {here : Known Process} {share : Share LockName}

theorem Valid.known (valid : Valid ghost state)
    (same : ghost.ledger.localOf process = here) {cell : Cell Process} {value : Value cell}
    (knows : here.parts share cell = some value) :
    cellValue ghost.disk ghost.object cell = some value := by
  rw [← same] at knows
  rw [← valid.values, Ledger.values, Ledger.contents_of_localOf knows]
  rfl

/-- A cell that does not exist has no owner. -/
theorem Valid.fresh (valid : Valid ghost state) {cell : Cell Process}
    (missing : cellValue ghost.disk ghost.object cell = none) :
    ghost.ledger.contents cell = none := by
  rw [← valid.values, Ledger.values, Option.map_eq_none_iff] at missing
  exact missing

theorem Valid.change (valid : Valid ghost state)
    {ledger : Ledger Process LockName (@Value Process)} {disk : Disk}
    (changed : Ledger.ChangedBy process ghost.ledger ledger)
    (values : ledger.values = cellValue disk ghost.object)
    (shaped : disk.WellShaped) (files : after.files = disk.files)
    (locks : after.locks = state.locks) (history : after.history = state.history) :
    Valid { ghost with ledger := ledger, disk := disk } after where
  consistent := changed.consistent valid.consistent
  values := values
  shaped := shaped
  files := files
  locks := by rw [locks, valid.locks, changed.held]
  runs := valid.runs
  history := by rw [history, valid.history]

theorem Valid.keeps (valid : Valid ghost state) {ghost' : Ghost Process}
    (changed : Ledger.ChangedBy process ghost.ledger ghost'.ledger) :
    (databaseLogic Process stops).Keeps process ghost ghost' :=
  fun _ different => changed.localOf_other valid.consistent different

theorem WellShaped.setItem {disk : Disk} {offset : Nat} {old new : IndexItem}
    (shaped : disk.WellShaped) (found : disk.item offset = some old)
    (kind : new.kind = old.kind) : (disk.setItem offset new).WellShaped := by
  rcases shaped with ⟨records, kinds⟩
  rcases split_of_itemAt found with ⟨before, after, split, _, replaced⟩
  refine ⟨records, ?_⟩
  rw [← kinds, Disk.setItem, replaced, split]
  simp only [List.map_append, List.map_cons, kind]

theorem WellShaped.addRecord {disk : Disk} (shaped : disk.WellShaped) (pointer : Pointer)
    (body : Body) : (disk.addItem (.record pointer body)).WellShaped := by
  rcases shaped with ⟨records, kinds⟩
  refine ⟨records + 1, ?_⟩
  rw [Disk.addItem, List.map_append, kinds, List.append_assoc, List.cons_append,
    List.replicate_add records 1]
  rfl

/-! ### How a cell changes with the files -/

section Values

variable {disk : Disk} {object : AtomicObject Process Table Call Return} {offset : Nat}

theorem cellValue_setPointer {old : IndexItem} (found : disk.item offset = some old)
    {pointer : Nat} (linked : old.pointer = some pointer) (new : Pointer) :
    cellValue (disk.setItem offset (old.setPointer new)) object =
      (cellValue disk object).put (.pointer offset) new.1 := by
  have size := old.encode_setPointer_length new
  funext cell
  cases cell with
  | pointer other =>
      by_cases same : other = offset
      · subst same
        simp only [cellValue, Disk.item_setItem found size, if_true, Option.bind_some,
          Fragment.put_same]
        cases old with
        | head => rfl
        | newline => cases linked
        | record => rfl
      · simp only [cellValue, Disk.item_setItem found size, if_neg same]
        rw [Fragment.put_of_ne]
        · rfl
        · exact fun equal => same (Cell.pointer.inj equal)
  | record other =>
      rw [Fragment.put_of_ne _ _ (by simp)]
      by_cases same : other = offset
      · subst same
        simp only [cellValue, Disk.item_setItem found size, if_true, Option.bind_some, found]
        cases old <;> rfl
      · simp only [cellValue, Disk.item_setItem found size, if_neg same]
  | idxSize =>
      rw [Fragment.put_of_ne _ _ (by simp)]
      exact congrArg some (Disk.indexFile_setItem_length found size)
  | extent other => rw [Fragment.put_of_ne _ _ (by simp)]; rfl
  | datSize => rw [Fragment.put_of_ne _ _ (by simp)]; rfl
  | table chain => rw [Fragment.put_of_ne _ _ (by simp)]; rfl
  | status process => rw [Fragment.put_of_ne _ _ (by simp)]; rfl

theorem cellValue_setRecord {stored new : Pointer} {body body' : Body}
    (found : disk.item offset = some (.record stored body))
    (size : body'.text.length = body.text.length) :
    cellValue (disk.setItem offset (.record new body')) object =
      ((cellValue disk object).put (.pointer offset) new.1).put (.record offset) body' := by
  have same : (IndexItem.record new body').encode.length =
      (IndexItem.record stored body).encode.length := by
    rw [encode_record_length, encode_record_length, size]
  funext cell
  cases cell with
  | pointer other =>
      rw [Fragment.put_of_ne _ _ (by simp)]
      by_cases here : other = offset
      · subst here
        simp only [cellValue, Disk.item_setItem found same, if_true, Option.bind_some,
          Fragment.put_same]
        rfl
      · simp only [cellValue, Disk.item_setItem found same, if_neg here]
        rw [Fragment.put_of_ne]
        · rfl
        · exact fun equal => here (Cell.pointer.inj equal)
  | record other =>
      by_cases here : other = offset
      · subst here
        simp only [cellValue, Disk.item_setItem found same, if_true, Option.bind_some,
          Fragment.put_same]
        rfl
      · simp only [cellValue, Disk.item_setItem found same, if_neg here]
        rw [Fragment.put_of_ne, Fragment.put_of_ne _ _ (by simp)]
        · rfl
        · exact fun equal => here (Cell.record.inj equal)
  | idxSize =>
      rw [Fragment.put_of_ne _ _ (by simp), Fragment.put_of_ne _ _ (by simp)]
      exact congrArg some (Disk.indexFile_setItem_length found same)
  | extent other =>
      rw [Fragment.put_of_ne _ _ (by simp), Fragment.put_of_ne _ _ (by simp)]; rfl
  | datSize => rw [Fragment.put_of_ne _ _ (by simp), Fragment.put_of_ne _ _ (by simp)]; rfl
  | table chain => rw [Fragment.put_of_ne _ _ (by simp), Fragment.put_of_ne _ _ (by simp)]; rfl
  | status process =>
      rw [Fragment.put_of_ne _ _ (by simp), Fragment.put_of_ne _ _ (by simp)]; rfl

theorem cellValue_setData {old new : CString} (found : disk.data offset = some old)
    (size : new.1.length = old.1.length) :
    cellValue (disk.setData offset new) object =
      (cellValue disk object).put (.extent offset) new := by
  funext cell
  cases cell with
  | extent other =>
      by_cases here : other = offset
      · subst here
        simp only [cellValue, Disk.data_setData found size, if_true, Fragment.put_same]
      · simp only [cellValue, Disk.data_setData found size, if_neg here]
        rw [Fragment.put_of_ne]
        · rfl
        · exact fun equal => here (Cell.extent.inj equal)
  | datSize =>
      rw [Fragment.put_of_ne _ _ (by simp)]
      exact congrArg some (Disk.dataFile_setData_length found size)
  | pointer other => rw [Fragment.put_of_ne _ _ (by simp)]; rfl
  | record other => rw [Fragment.put_of_ne _ _ (by simp)]; rfl
  | idxSize => rw [Fragment.put_of_ne _ _ (by simp)]; rfl
  | table chain => rw [Fragment.put_of_ne _ _ (by simp)]; rfl
  | status process => rw [Fragment.put_of_ne _ _ (by simp)]; rfl

theorem cellValue_addRecord (new : Pointer) (body : Body) :
    cellValue (disk.addItem (.record new body)) object =
      (((cellValue disk object).put (.pointer disk.indexFile.length) new.1).put
        (.record disk.indexFile.length) body).put .idxSize
          (disk.indexFile.length + (PTR_SZ + IDXLEN_SZ + body.text.length)) := by
  funext cell
  cases cell with
  | pointer other =>
      rw [Fragment.put_of_ne _ _ (by simp), Fragment.put_of_ne _ _ (by simp)]
      by_cases here : other = disk.indexFile.length
      · subst here
        simp only [cellValue, Disk.item_addItem, if_true, Option.bind_some, Fragment.put_same]
        rfl
      · simp only [cellValue, Disk.item_addItem, if_neg here]
        rw [Fragment.put_of_ne]
        · rfl
        · exact fun equal => here (Cell.pointer.inj equal)
  | record other =>
      rw [Fragment.put_of_ne _ _ (by simp)]
      by_cases here : other = disk.indexFile.length
      · subst here
        simp only [cellValue, Disk.item_addItem, if_true, Option.bind_some, Fragment.put_same]
        rfl
      · simp only [cellValue, Disk.item_addItem, if_neg here]
        rw [Fragment.put_of_ne, Fragment.put_of_ne _ _ (by simp)]
        · rfl
        · exact fun equal => here (Cell.record.inj equal)
  | idxSize =>
      simp only [cellValue, Disk.indexFile_addItem_length, encode_record_length,
        Fragment.put_same]
  | extent other =>
      rw [Fragment.put_of_ne _ _ (by simp), Fragment.put_of_ne _ _ (by simp),
        Fragment.put_of_ne _ _ (by simp)]
      rfl
  | datSize =>
      rw [Fragment.put_of_ne _ _ (by simp), Fragment.put_of_ne _ _ (by simp),
        Fragment.put_of_ne _ _ (by simp)]
      rfl
  | table chain =>
      rw [Fragment.put_of_ne _ _ (by simp), Fragment.put_of_ne _ _ (by simp),
        Fragment.put_of_ne _ _ (by simp)]
      rfl
  | status process =>
      rw [Fragment.put_of_ne _ _ (by simp), Fragment.put_of_ne _ _ (by simp),
        Fragment.put_of_ne _ _ (by simp)]
      rfl

theorem cellValue_addData (new : CString) :
    cellValue (disk.addData new) object =
      ((cellValue disk object).put (.extent disk.dataFile.length) new).put .datSize
        (disk.dataFile.length + (new.1.length + 1)) := by
  funext cell
  cases cell with
  | extent other =>
      rw [Fragment.put_of_ne _ _ (by simp)]
      by_cases here : other = disk.dataFile.length
      · subst here
        simp only [cellValue, Disk.data_addData, if_true, Fragment.put_same]
      · simp only [cellValue, Disk.data_addData, if_neg here]
        rw [Fragment.put_of_ne]
        · rfl
        · exact fun equal => here (Cell.extent.inj equal)
  | datSize =>
      simp only [cellValue, Disk.dataFile_addData_length, Fragment.put_same]
  | pointer other =>
      rw [Fragment.put_of_ne _ _ (by simp), Fragment.put_of_ne _ _ (by simp)]; rfl
  | record other =>
      rw [Fragment.put_of_ne _ _ (by simp), Fragment.put_of_ne _ _ (by simp)]; rfl
  | idxSize => rw [Fragment.put_of_ne _ _ (by simp), Fragment.put_of_ne _ _ (by simp)]; rfl
  | table chain => rw [Fragment.put_of_ne _ _ (by simp), Fragment.put_of_ne _ _ (by simp)]; rfl
  | status process =>
      rw [Fragment.put_of_ne _ _ (by simp), Fragment.put_of_ne _ _ (by simp)]; rfl

end Values

section Commands

variable {Result : Type} {post : Result → Known Process → Prop}

theorem read_safe {file : File} {offset count : Nat}
    {next : Bytes → Program Command Response Result}
    (continued : ∀ (ghost : Ghost Process) (state : State Process), Valid ghost state →
      ghost.ledger.localOf process = here →
        Safe stops process post (next (pread (ghost.disk.files file) offset count)) here) :
    Safe stops process post (.call (.read file offset count) next) here := by
  refine ⟨trivial, fun ghost state valid same response after stepped => ?_⟩
  cases stepped.2
  refine ⟨ghost, valid, fun _ _ => rfl, ?_⟩
  rw [same, valid.files]
  exact continued ghost state valid same

theorem size_safe {file : File} {next : Nat → Program Command Response Result}
    (continued : ∀ (ghost : Ghost Process) (state : State Process), Valid ghost state →
      ghost.ledger.localOf process = here →
        Safe stops process post (next (ghost.disk.files file).length) here) :
    Safe stops process post (.call (.size file) next) here := by
  refine ⟨trivial, fun ghost state valid same response after stepped => ?_⟩
  cases stepped.2
  refine ⟨ghost, valid, fun _ _ => rfl, ?_⟩
  rw [same, valid.files]
  exact continued ghost state valid same

theorem write_safe {file : File} {offset : Nat} {text : Bytes}
    {next : Unit → Program Command Response Result}
    (moved : ∀ (ghost : Ghost Process) (state : State Process), Valid ghost state →
      ghost.ledger.localOf process = here → ∃ ledger disk,
        Ledger.ChangedBy process ghost.ledger ledger ∧
        ledger.values = cellValue disk ghost.object ∧
        disk.WellShaped ∧
        Function.update ghost.disk.files file (pwrite (ghost.disk.files file) offset text) =
          disk.files ∧
        Safe stops process post (next ()) (ledger.localOf process)) :
    Safe stops process post (.call (.write file offset text) next) here := by
  refine ⟨trivial, fun ghost state valid same response after stepped => ?_⟩
  cases stepped.2
  rcases moved ghost state valid same with ⟨ledger, disk, changed, values, shaped, files,
    continued⟩
  refine ⟨{ ghost with ledger := ledger, disk := disk }, ?_, valid.keeps changed, continued⟩
  refine valid.change changed values shaped ?_ rfl rfl
  rw [← files, ← valid.files]
  rfl

/-! ### Writes -/

omit [DecidableEq Process] in
theorem item_of_pointer {disk : Disk} {object : AtomicObject Process Table Call Return}
    {offset pointer : Nat}
    (stored : cellValue disk object (.pointer offset) = some pointer) :
    ∃ item, disk.item offset = some item ∧ item.pointer = some pointer := by
  rcases Option.bind_eq_some_iff.mp stored with ⟨item, found, linked⟩
  exact ⟨item, found, linked⟩

omit [DecidableEq Process] in
theorem item_of_record {disk : Disk} {object : AtomicObject Process Table Call Return}
    {offset : Nat} {body : Body}
    (stored : cellValue disk object (.record offset) = some body) :
    ∃ pointer, disk.item offset = some (.record pointer body) := by
  rcases Option.bind_eq_some_iff.mp stored with ⟨item, found, isBody⟩
  cases item with
  | head => cases isBody
  | newline => cases isBody
  | record pointer body' =>
      cases isBody
      exact ⟨pointer, found⟩

theorem update_files_idx {disk disk' : Disk} {contents : Bytes}
    (idx : contents = disk'.indexFile) (dat : disk'.dat = disk.dat) :
    Function.update disk.files .idx contents = disk'.files := by
  funext file
  cases file with
  | idx => rw [Function.update_self, idx]; rfl
  | dat =>
      rw [Function.update_of_ne (by simp)]
      simp only [Disk.files, Disk.dataFile, dat]

theorem update_files_dat {disk disk' : Disk} {contents : Bytes}
    (dat : contents = disk'.dataFile) (idx : disk'.idx = disk.idx) :
    Function.update disk.files .dat contents = disk'.files := by
  funext file
  cases file with
  | dat => rw [Function.update_self, dat]; rfl
  | idx =>
      rw [Function.update_of_ne (by simp)]
      simp only [Disk.files, Disk.indexFile, idx]

/-- A pointer field is rewritten. -/
theorem writePointer_safe {offset old : Nat} {next : Unit → Program Command Response Result}
    (writable : here.writable share) (knows : here.parts share (.pointer offset) = some old)
    (new : Pointer)
    (continued : Safe stops process post (next ()) (here.put share (.pointer offset) new.1)) :
    Safe stops process post (.call (.write .idx offset (encodePointer new)) next) here := by
  apply write_safe
  intro ghost state valid same
  rcases item_of_pointer (valid.known same knows) with ⟨item, found, linked⟩
  rcases Ledger.write_cell share (.pointer offset) new.1 same writable
    (Or.inr (by rw [knows]; simp)) with
    ⟨ledger, changed, values, there, _⟩
  refine ⟨ledger, ghost.disk.setItem offset (item.setPointer new), changed, ?_, ?_, ?_, ?_⟩
  · rw [values, valid.values, cellValue_setPointer found linked]
  · exact WellShaped.setItem valid.shaped found (by cases item <;> rfl)
  · exact update_files_idx (Disk.pwrite_pointer found linked new) rfl
  · rw [there]
    exact continued

/-- An index record is rewritten in place. -/
theorem writeRecord_safe {offset old : Nat} {body body' : Body}
    {next : Unit → Program Command Response Result}
    (writable : here.writable share) (knows : here.parts share (.pointer offset) = some old)
    (knowsBody : here.parts share (.record offset) = some body)
    (size : body'.text.length = body.text.length) (new : Pointer)
    (continued : Safe stops process post (next ())
      ((here.put share (.pointer offset) new.1).put share (.record offset) body')) :
    Safe stops process post (.call (.write .idx offset (IndexItem.record new body').encode) next)
      here := by
  apply write_safe
  intro ghost state valid same
  rcases item_of_record (valid.known same knowsBody) with ⟨pointer, found⟩
  rcases Ledger.write_cell share (.pointer offset) new.1 same writable
    (Or.inr (by rw [knows]; simp)) with
    ⟨first, changedFirst, valuesFirst, thereFirst, _⟩
  rcases Ledger.write_cell share (.record offset) body' thereFirst
    (Holdings.put_writable.mpr writable) (Or.inr (by
      rw [Holdings.put_parts_same, Fragment.put_of_ne _ _ (by simp), knowsBody]
      simp)) with
    ⟨ledger, changed, values, there, _⟩
  refine ⟨ledger, ghost.disk.setItem offset (.record new body'), changedFirst.trans changed,
    ?_, ?_, ?_, ?_⟩
  · rw [values, valuesFirst, valid.values, cellValue_setRecord found size]
  · exact WellShaped.setItem valid.shaped found rfl
  · refine update_files_idx (Disk.pwrite_record found ?_) rfl
    rw [encode_record_length, encode_record_length, size]
  · rw [there]
    exact continued

/-- A data record is rewritten in place. -/
theorem writeData_safe {offset : Nat} {old new : CString}
    {next : Unit → Program Command Response Result}
    (writable : here.writable share) (knows : here.parts share (.extent offset) = some old)
    (size : new.1.length = old.1.length)
    (continued : Safe stops process post (next ()) (here.put share (.extent offset) new)) :
    Safe stops process post (.call (.write .dat offset (encodeData new)) next) here := by
  apply write_safe
  intro ghost state valid same
  have found : ghost.disk.data offset = some old := valid.known same knows
  rcases Ledger.write_cell share (.extent offset) new same writable
    (Or.inr (by rw [knows]; simp)) with ⟨ledger, changed, values, there, _⟩
  refine ⟨ledger, ghost.disk.setData offset new, changed, ?_, valid.shaped, ?_, ?_⟩
  · rw [values, valid.values, cellValue_setData found size]
  · exact update_files_dat (Disk.pwrite_data found size) rfl
  · rw [there]
    exact continued

theorem unknown_of_fresh (same : ghost.ledger.localOf process = here) {cell : Cell Process}
    (fresh : ghost.ledger.contents cell = none) (share : Share LockName) :
    here.parts share cell = none := by
  rw [← same]
  by_contra known
  rcases Option.ne_none_iff_exists'.mp known with ⟨value, found⟩
  cases fresh.symm.trans (Ledger.contents_of_localOf found)

/-- A data record is put at the end of the data file. -/
theorem appendData_safe {size : Nat} {new : CString}
    {next : Unit → Program Command Response Result}
    (held : here.writable (.lock .datEnd))
    (knows : here.parts (.lock .datEnd) .datSize = some size)
    (continued : (∀ share, here.parts share (.extent size) = none) →
      Safe stops process post (next ())
        ((here.put .own (.extent size) new).put (.lock .datEnd) .datSize
          (size + (new.1.length + 1)))) :
    Safe stops process post (.call (.write .dat size (encodeData new)) next) here := by
  apply write_safe
  intro ghost state valid same
  have isSize : ghost.disk.dataFile.length = size :=
    Option.some.inj (valid.known same knows)
  subst isSize
  have missing : ghost.disk.data ghost.disk.dataFile.length = none :=
    itemAt_beyond encodeData_nonempty _ (Nat.le_refl _)
  have fresh : ghost.ledger.contents (.extent ghost.disk.dataFile.length) = none :=
    valid.fresh missing
  rcases Ledger.write_cell .own (.extent ghost.disk.dataFile.length) new same trivial
    (Or.inl fresh) with
    ⟨first, changedFirst, valuesFirst, thereFirst, _⟩
  rcases Ledger.write_cell (.lock .datEnd) .datSize
    (ghost.disk.dataFile.length + (new.1.length + 1)) thereFirst
    (Holdings.put_writable.mpr held) (Or.inr (by
      rw [Holdings.put_parts_of_ne _ (by simp), knows]
      simp)) with
    ⟨ledger, changed, values, there, _⟩
  refine ⟨ledger, ghost.disk.addData new, changedFirst.trans changed, ?_, valid.shaped,
    ?_, ?_⟩
  · rw [values, valuesFirst, valid.values, cellValue_addData]
  · exact update_files_dat (Disk.pwrite_addData new) rfl
  · rw [there]
    exact continued (unknown_of_fresh same fresh)

/-- An index record is put at the end of the index file. -/
theorem appendRecord_safe {size : Nat} (new : Pointer) (body : Body)
    {next : Unit → Program Command Response Result}
    (held : here.writable (.lock .idxEnd))
    (knows : here.parts (.lock .idxEnd) .idxSize = some size)
    (continued : (∀ share, here.parts share (.record size) = none) →
      Safe stops process post (next ())
        (((here.put .own (.pointer size) new.1).put .own (.record size) body).put
          (.lock .idxEnd) .idxSize (size + (PTR_SZ + IDXLEN_SZ + body.text.length)))) :
    Safe stops process post (.call (.write .idx size (IndexItem.record new body).encode) next)
      here := by
  apply write_safe
  intro ghost state valid same
  have isSize : ghost.disk.indexFile.length = size :=
    Option.some.inj (valid.known same knows)
  subst isSize
  have missing : ghost.disk.item ghost.disk.indexFile.length = none :=
    itemAt_beyond IndexItem.encode_nonempty _ (Nat.le_refl _)
  have freshPointer : ghost.ledger.contents (.pointer ghost.disk.indexFile.length) = none :=
    valid.fresh (by rw [cellValue, missing]; rfl)
  have freshRecord : ghost.ledger.contents (.record ghost.disk.indexFile.length) = none :=
    valid.fresh (by rw [cellValue, missing]; rfl)
  rcases Ledger.write_cell .own (.pointer ghost.disk.indexFile.length) new.1 same
    trivial (Or.inl freshPointer) with
    ⟨first, changedFirst, valuesFirst, thereFirst, othersFirst⟩
  rcases Ledger.write_cell .own (.record ghost.disk.indexFile.length) body thereFirst
    trivial (Or.inl ((othersFirst _ (by simp)).trans freshRecord)) with
    ⟨second, changedSecond, valuesSecond, thereSecond, _⟩
  rcases Ledger.write_cell (.lock .idxEnd) .idxSize
    (ghost.disk.indexFile.length + (PTR_SZ + IDXLEN_SZ + body.text.length)) thereSecond
    (Holdings.put_writable.mpr (Holdings.put_writable.mpr held))
    (Or.inr (by
      rw [Holdings.put_parts_of_ne _ (by simp), Holdings.put_parts_of_ne _ (by simp), knows]
      simp)) with
    ⟨ledger, changed, values, there, _⟩
  refine ⟨ledger, ghost.disk.addItem (.record new body),
    (changedFirst.trans changedSecond).trans changed, ?_,
    WellShaped.addRecord valid.shaped new body, ?_, ?_⟩
  · rw [values, valuesSecond, valuesFirst, valid.values, cellValue_addRecord]
  · exact update_files_idx (Disk.pwrite_addItem (.record new body)) rfl
  · rw [there]
    exact continued (unknown_of_fresh same freshRecord)

/-! ### Locks -/

theorem kindOf_conflicts {mode : Mode} {held : Option Mode}
    (granted : conflicts (kindOf mode) (held.map kindOf) = false) :
    held ≠ some .exclusive ∧ (mode = .exclusive → held = none) := by
  cases held with
  | none => exact ⟨by simp, fun _ => rfl⟩
  | some other =>
      cases mode <;> cases other <;> simp_all [kindOf, conflicts]

theorem LockName.inRange_start (name : LockName) :
    inRange name.start name.length name.start = true := by
  cases name <;> simp [inRange, LockName.length]

theorem lock_safe (name : LockName) (mode : Mode)
    {next : Unit → Program Command Response Result}
    (below : ∀ other : LockName, here.held other ≠ none → other.rank < name.rank)
    (continued : ∀ part, lockInv name part →
      (∀ share, share ≠ .lock name → ∀ cell, part cell ≠ none →
        here.parts share cell = none) →
      Safe stops process post (next ()) (here.acquire name mode part)) :
    Safe stops process post (.call (.lock name.file (kindOf mode) name.start name.length) next)
      here := by
  refine ⟨⟨name, rfl, rfl, rfl, below⟩,
    fun ghost state valid same response after stepped => ?_⟩
  rcases stepped with ⟨granted, performed⟩
  cases performed
  have notHeld : ghost.ledger.held process name = none := by
    by_contra holds
    have held : here.held name ≠ none := by
      rw [← same]
      exact holds
    exact Nat.lt_irrefl _ (below name held)
  have others : ∀ other, other ≠ process → ghost.ledger.held other name ≠ some .exclusive ∧
      (mode = .exclusive → ghost.ledger.held other name = none) := by
    intro other different
    have free := granted other different name.start name.inRange_start
    rw [valid.locks, lockTable,
      LockName.lockOf_eq_some.mpr ⟨rfl, name.inRange_start⟩] at free
    exact kindOf_conflicts free
  refine ⟨{ ghost with ledger := ghost.ledger.hold process name (some mode) }, ?_, ?_, ?_⟩
  · exact
      { consistent := Ledger.hold_consistent valid.consistent others notHeld
        values := valid.values
        shaped := valid.shaped
        files := valid.files
        locks := setLocks_lockTable process name (some mode) valid.locks
        runs := valid.runs
        history := valid.history }
  · exact fun _ different => Ledger.hold_localOf_other _ different
  · have there : (ghost.ledger.hold process name (some mode)).localOf process =
        here.acquire name mode (ghost.ledger.part (.lock name)) := by
      rw [Ledger.hold_localOf]
      exact congrArg (fun known => Holdings.acquire known name mode _) same
    change Safe stops process post (next ()) ((ghost.ledger.hold process name _).localOf process)
    rw [there]
    apply continued
    · apply valid.consistent.unlocked
      intro other exclusive
      by_cases isProcess : other = process
      · subst isProcess
        rw [notHeld] at exclusive
        cases exclusive
      · exact (others other isProcess).1 exclusive
    · intro share different cell holds
      rw [← same]
      by_contra known
      rcases Option.ne_none_iff_exists'.mp known with ⟨value, found⟩
      rcases Option.ne_none_iff_exists'.mp holds with ⟨value', found'⟩
      have owners := (Ledger.contents_of_localOf found).symm.trans
        (Ledger.part_eq_some.mp found')
      exact Share.owner_ne different (congrArg Prod.fst (Option.some.inj owners))

theorem unlock_safe (name : LockName) {next : Unit → Program Command Response Result}
    (holds : here.held name ≠ none)
    (kept : here.held name = some .exclusive → lockInv name (here.parts (.lock name)))
    (continued : Safe stops process post (next ()) (here.release name)) :
    Safe stops process post (.call (.unlock name.file name.start name.length) next) here := by
  refine ⟨trivial, fun ghost state valid same response after stepped => ?_⟩
  cases stepped.2
  have heldHere : ghost.ledger.held process name = here.held name := by
    rw [← same]
    rfl
  have inv : lockInv name (ghost.ledger.part (.lock name)) := by
    by_cases exclusive : here.held name = some .exclusive
    · have part := kept exclusive
      rw [← same] at part
      rwa [show ((databaseLogic Process stops).localOf process ghost).parts (.lock name) = _ from
        Ledger.localOf_part_lock (heldHere ▸ holds)] at part
    · apply valid.consistent.unlocked
      intro other held
      have isOther := valid.consistent.exclusive other process name held (heldHere ▸ holds)
      subst isOther
      exact exclusive (heldHere ▸ held)
  refine ⟨{ ghost with ledger := ghost.ledger.hold process name none }, ?_, ?_, ?_⟩
  · exact
      { consistent := Ledger.unhold_consistent valid.consistent inv
        values := valid.values
        shaped := valid.shaped
        files := valid.files
        locks := setLocks_lockTable process name none valid.locks
        runs := valid.runs
        history := valid.history }
  · exact fun _ different => Ledger.hold_localOf_other _ different
  · have there : (ghost.ledger.hold process name none).localOf process =
        here.release name := by
      rw [Ledger.unhold_localOf]
      exact congrArg (fun known => Holdings.release known name) same
    change Safe stops process post (next ()) ((ghost.ledger.hold process name none).localOf process)
    rw [there]
    exact continued

/-! ### Handing records over -/

theorem transfer_safe (source target : Share LockName) (moved : Cell Process → Bool)
    {command : Command} {next : Response command → Program Command Response Result}
    (permitted : Allowed stops process command here) (fromSource : here.writable source)
    (toTarget : here.writable target) (different : source ≠ target)
    (continued : Safe stops process post (.call command next)
      ((here.setPart source ((here.parts source).without moved)).setPart target
        ((here.parts target).gain (here.parts source) moved))) :
    Safe stops process post (.call command next) here := by
  apply LocalLogic.Safe.shift continued permitted
  rintro ghost state valid rfl
  have changed : Ledger.ChangedBy process ghost.ledger
      (ghost.ledger.transfer process source target moved) :=
    Ledger.transfer_changedBy fromSource toTarget
  refine ⟨{ ghost with ledger := ghost.ledger.transfer process source target moved }, ?_,
    valid.keeps changed, Ledger.transfer_localOf fromSource toTarget different⟩
  exact valid.change changed (Ledger.transfer_values.trans valid.values) valid.shaped
    valid.files rfl rfl

/-! ### The map -/

theorem cellValue_setPending {disk : Disk}
    {object : AtomicObject Process Table Call Return} (process : Process)
    (pending : Pending Call Return) :
    cellValue disk (object.setPending process pending) =
      (cellValue disk object).put (.status process) pending := by
  funext cell
  cases cell with
  | status other =>
      by_cases isProcess : other = process
      · subst isProcess
        simp only [cellValue, AtomicObject.setPending, Function.update_self, Fragment.put_same]
      · rw [Fragment.put_of_ne _ _ (fun equal => isProcess (Cell.status.inj equal))]
        simp only [cellValue, AtomicObject.setPending, Function.update_of_ne isProcess]
  | _ => exact (Fragment.put_of_ne _ _ (by simp)).symm

theorem cellValue_effect {disk : Disk} {object : AtomicObject Process Table Call Return}
    (process : Process) (call : Call) (pending : Pending Call Return) :
    cellValue disk
        ⟨(applyCall call object.object).2, Function.update object.pending process pending⟩ =
      ((cellValue disk object).put (.table (chainOf call.key))
        (applyCall call (tableOn object.object (chainOf call.key))).2).put
          (.status process) pending := by
  funext cell
  cases cell with
  | status other =>
      by_cases isProcess : other = process
      · subst isProcess
        simp only [cellValue, Function.update_self, Fragment.put_same]
      · rw [Fragment.put_of_ne _ _ (fun equal => isProcess (Cell.status.inj equal)),
          Fragment.put_of_ne _ _ (by simp)]
        simp only [cellValue, Function.update_of_ne isProcess]
  | table chain =>
      rw [Fragment.put_of_ne _ _ (by simp)]
      by_cases isChain : chain = chainOf call.key
      · subst isChain
        rw [Fragment.put_same]
        simp only [cellValue, tableOn_applyCall, if_true]
      · rw [Fragment.put_of_ne _ _ (fun equal => isChain (Cell.table.inj equal))]
        simp only [cellValue, tableOn_applyCall, if_neg (Ne.symm isChain)]
  | _ =>
      rw [Fragment.put_of_ne _ _ (by simp), Fragment.put_of_ne _ _ (by simp)]
      rfl

theorem onlyStatus_same (pending : Pending Call Return) :
    onlyStatus process pending (.status process) = some pending :=
  Fragment.put_same _ _ _

theorem onlyStatus_of_ne (pending : Pending Call Return) {cell : Cell Process}
    (different : cell ≠ .status process) : onlyStatus process pending cell = none :=
  Fragment.put_of_ne _ _ different

theorem onlyStatus_put (before after : Pending Call Return) :
    (onlyStatus process before).put (.status process) after = onlyStatus process after :=
  Function.update_idem _ _ _

theorem atRest_put (before after : Pending Call Return) :
    (atRest process before).put .own (.status process) after = atRest process after := by
  have status : (atRest process before).parts .own = onlyStatus process before := rfl
  rw [Holdings.put, Holdings.only_setPart, status, onlyStatus_put]

theorem invoke_safe {call : Call} {next : Unit → Program Command Response Result}
    (continued : Safe stops process post (next ()) (atRest process (.called call))) :
    Safe stops process post (.call (.invoke call) next) (atRest process .idle) := by
  refine ⟨rfl, fun ghost state valid same response after stepped => ?_⟩
  cases stepped.2
  have idle : (atRest process .idle).parts .own (.status process) = some .idle :=
    Fragment.put_same _ _ _
  rcases Ledger.write_cell .own (.status process) (.called call) same trivial
    (Or.inr (by rw [idle]; simp)) with ⟨ledger, changed, values, there, _⟩
  have pending : ghost.object.pending process = .idle :=
    Option.some.inj (valid.known same idle)
  refine ⟨{ ghost with
    ledger := ledger
    object := ghost.object.setPending process (.called call)
    actions := ghost.actions ++ [.event (.invoke process call)] }, ?_, valid.keeps changed, ?_⟩
  · exact
      { consistent := changed.consistent valid.consistent
        values := by rw [values, valid.values, cellValue_setPending]
        shaped := valid.shaped
        files := valid.files
        locks := by rw [changed.held, ← valid.locks]
        runs := valid.runs.snoc (.invoke call pending)
        history := by rw [List.filterMap_append, valid.history]; rfl }
  · change Safe stops process post (next ()) (ledger.localOf process)
    rw [there, atRest_put]
    exact continued

theorem respond_safe {result : Return} {next : Unit → Program Command Response Result}
    (effected : here.parts .own (.status process) = some (.effected result))
    (continued : Safe stops process post (next ()) (here.put .own (.status process) .idle)) :
    Safe stops process post (.call (.respond result) next) here := by
  refine ⟨trivial, fun ghost state valid same response after stepped => ?_⟩
  cases stepped.2
  rcases Ledger.write_cell .own (.status process) .idle same trivial
    (Or.inr (by rw [effected]; simp)) with ⟨ledger, changed, values, there, _⟩
  have pending : ghost.object.pending process = .effected result :=
    Option.some.inj (valid.known same effected)
  refine ⟨{ ghost with
    ledger := ledger
    object := ghost.object.setPending process .idle
    actions := ghost.actions ++ [.event (.respond process result)] }, ?_,
    valid.keeps changed, ?_⟩
  · exact
      { consistent := changed.consistent valid.consistent
        values := by rw [values, valid.values, cellValue_setPending]
        shaped := valid.shaped
        files := valid.files
        locks := by rw [changed.held, ← valid.locks]
        runs := valid.runs.snoc (.respond pending)
        history := by rw [List.filterMap_append, valid.history]; rfl }
  · change Safe stops process post (next ()) (ledger.localOf process)
    rw [there]
    exact continued

/-- A call takes effect while its process holds the hash chain exclusively. -/
theorem effectWrite_safe {call : Call} {table : Table} {command : Command}
    {next : Response command → Program Command Response Result}
    (permitted : Allowed stops process command here)
    (called : here.parts .own (.status process) = some (.called call))
    (held : here.writable (.lock (.chain (chainOf call.key))))
    (knows : here.parts (.lock (.chain (chainOf call.key))) (.table (chainOf call.key)) =
      some table)
    (continued : Safe stops process post (.call command next)
      ((here.put .own (.status process) (.effected (applyCall call table).1)).put
        (.lock (.chain (chainOf call.key))) (.table (chainOf call.key))
        (applyCall call table).2)) :
    Safe stops process post (.call command next) here := by
  apply LocalLogic.Safe.shift continued permitted
  intro ghost state valid same
  have isTable : tableOn ghost.object.object (chainOf call.key) = table :=
    Option.some.inj (valid.known same knows)
  have pending : ghost.object.pending process = .called call :=
    Option.some.inj (valid.known same called)
  have result : (applyCall call ghost.object.object).1 = (applyCall call table).1 := by
    apply applyCall_congr
    rw [← isTable, tableOn_self]
  rcases Ledger.write_cell .own (.status process) (.effected (applyCall call table).1) same
    trivial (Or.inr (by rw [called]; simp)) with
    ⟨first, changedFirst, valuesFirst, thereFirst, _⟩
  rcases Ledger.write_cell (.lock (.chain (chainOf call.key))) (.table (chainOf call.key))
    (applyCall call table).2 thereFirst (Holdings.put_writable.mpr held)
    (Or.inr (by rw [Holdings.put_parts_of_ne _ (by simp), knows]; simp)) with
    ⟨ledger, changed, values, there, _⟩
  have both := changedFirst.trans changed
  refine ⟨{ ghost with
    ledger := ledger
    object :=
      { object := (applyCall call ghost.object.object).2
        pending := Function.update ghost.object.pending process
          (.effected (applyCall call ghost.object.object).1) }
    actions := ghost.actions ++ [.effect process] }, ?_, valid.keeps both, there⟩
  exact
    { consistent := both.consistent valid.consistent
      values := by
        rw [values, valuesFirst, valid.values, cellValue_effect, isTable, result]
        exact Function.update_comm (by simp) _ _ _
      shaped := valid.shaped
      files := valid.files
      locks := by rw [both.held, ← valid.locks]
      runs := valid.runs.snoc (.effect pending)
      history := by rw [List.filterMap_append, valid.history]; exact List.append_nil _ }

/-- A call that changes nothing takes effect on what its process can see of the
hash chain. -/
theorem effectRead_safe {call : Call} {result : Return} {command : Command}
    {next : Response command → Program Command Response Result}
    (permitted : Allowed stops process command here)
    (called : here.parts .own (.status process) = some (.called call))
    (unchanged : ∀ (ghost : Ghost Process) state, Valid ghost state →
      ghost.ledger.localOf process = here →
        applyCall call ghost.object.object = (result, ghost.object.object))
    (continued : Safe stops process post (.call command next)
      (here.put .own (.status process) (.effected result))) :
    Safe stops process post (.call command next) here := by
  apply LocalLogic.Safe.shift continued permitted
  intro ghost state valid same
  have applied := unchanged ghost state valid same
  have pending : ghost.object.pending process = .called call :=
    Option.some.inj (valid.known same called)
  rcases Ledger.write_cell .own (.status process) (.effected result) same trivial
    (Or.inr (by rw [called]; simp)) with ⟨ledger, changed, values, there, _⟩
  refine ⟨{ ghost with
    ledger := ledger
    object := ghost.object.setPending process (.effected result)
    actions := ghost.actions ++ [.effect process] }, ?_, valid.keeps changed, there⟩
  have acts : AtomicObject.Acts applyCall ghost.object (.effect process)
      ⟨(applyCall call ghost.object.object).2, Function.update ghost.object.pending process
        (.effected (applyCall call ghost.object.object).1)⟩ := .effect pending
  rw [applied] at acts
  exact
    { consistent := changed.consistent valid.consistent
      values := by rw [values, valid.values, cellValue_setPending]
      shaped := valid.shaped
      files := valid.files
      locks := by rw [changed.held, ← valid.locks]
      runs := valid.runs.snoc acts
      history := by rw [List.filterMap_append, valid.history]; exact List.append_nil _ }

end Commands

end

end Apue.Database
