import Apue.Database.Stages

/-! # A handle finds the header

What the functions of the library do to the index file, whatever the others do at
the same time and whatever is in the data file: they write into pointer fields
and records, and behind the last record.
-/

namespace Apue.Database

open Apue.Foundation Ascii

section

variable {Process : Type} [DecidableEq Process] {process : Process} {db : DB} {here : Stage}
  {sizes : Sizes}

/-! ## Parts of functions -/

section Parts

variable {Result Next : Type}

theorem bind_guarded {function : Library Result} {rest : Result → Library Next}
    {post : Next → DB → Stage → Prop}
    (guarded : Guarded process
      (fun result db' there => Guarded process post (rest result) db' there) function db here) :
    Guarded process post (function >>= rest) db here :=
  LocalLogic.Safe.bind guarded

theorem fail_guarded {failure : Failure} {post : Result → DB → Stage → Prop}
    (other : failure ≠ .readptrRead) : Guarded process post (fail failure) db here := by
  refine ⟨fun same => other (Command.exit.inj same), fun picture system sound same response => ?_⟩
  cases response

theorem pure_guarded {post : Result → DB → Stage → Prop} {result : Result}
    (continued : post result db here) : Guarded process post (pure result) db here := continued

theorem get_guarded {post : DB → DB → Stage → Prop} (continued : post db db here) :
    Guarded process post get db here := continued

theorem modify_guarded {post : Unit → DB → Stage → Prop} {change : DB → DB}
    (continued : post () (change db) here) : Guarded process post (modify change) db here :=
  continued

theorem lseekIdx_guarded {post : Unit → DB → Stage → Prop} {offset : Nat}
    (continued : post () { db with idxPosition := offset } here) :
    Guarded process post (lseekIdx offset) db here := by
  rw [Guarded, lseekIdx_natCast]
  exact continued

theorem lseekDat_guarded {post : Unit → DB → Stage → Prop} {offset : Nat}
    (continued : post () { db with datPosition := offset } here) :
    Guarded process post (lseekDat offset) db here := by
  rw [Guarded, lseekDat_natCast]
  exact continued

/-- A read of the index file, with what it finds there. -/
theorem readIdx_guarded {count : Nat} {post : Bytes → DB → Stage → Prop}
    (continued : ∀ pieces : Pieces, pieces.WellFormed → Grows sizes pieces.sizes →
      ∃ sizes', Grows sizes' pieces.sizes ∧ ∃ text, pread pieces.file db.idxPosition count = text ∧
        post text { db with idxPosition := db.idxPosition + text.length } (.working sizes')) :
    Guarded process post (readIdx count) db (.working sizes) := by
  apply bind_guarded
  apply get_guarded
  apply bind_guarded
  have quiet : ¬ Disturbs (.read .idx db.idxPosition count) := id
  apply look_guarded quiet
  rintro pieces wellFormed grows response rfl
  rcases continued pieces wellFormed grows with ⟨sizes', known, text, rfl, holds⟩
  exact ⟨sizes', known, holds⟩

end Parts

/-! ## Reading -/

theorem readptr_guarded {post : Int → DB → Stage → Prop} {offset : Nat}
    (has : sizes.HasPointer offset)
    (continued : ∀ (pointer : Nat) sizes' position, Grows sizes sizes' → sizes'.Leads pointer →
      post pointer { db with idxPosition := position } (.working sizes')) :
    Guarded process post (dbReadptr offset) db (.working sizes) := by
  apply bind_guarded
  apply lseekIdx_guarded
  apply bind_guarded
  apply readIdx_guarded
  intro pieces wellFormed grows
  rcases has.get wellFormed grows with ⟨piece, pointer, found, points⟩
  refine ⟨pieces.sizes, Grows.refl _, _, Pieces.pread_pointer found points, ?_⟩
  simp only [encodePointer_length, ne_eq, not_true_eq_false, if_false, atol_encodePointer]
  apply continued _ _ _ grows
  exact wellFormed.linked piece (mem_of_itemAt found) pointer points

/-- The structure tells of the record that was read at a place. -/
structure OnRow (sizes : Sizes) (db : DB) (place datoff : Nat) : Prop where
  idxoff : db.idxoff = place
  isDatoff : db.datoff = datoff
  noNul : ∀ byte ∈ db.idxbuf, byte ≠ 0
  datlen_pos : 0 < db.datlen
  datlen_le : db.datlen ≤ DATLEN_MAX
  sized : sizes place = some (recordText db.idxbuf datoff db.datlen).length

theorem OnRow.grow {sizes' : Sizes} {place datoff : Nat} (row : OnRow sizes db place datoff)
    (grows : Grows sizes sizes') : OnRow sizes' db place datoff :=
  { row with sized := grows _ _ row.sized }

theorem OnRow.known {place datoff : Nat} (row : OnRow sizes db place datoff) :
    sizes place ≠ none := by
  rw [row.sized]
  exact Option.some_ne_none _

/-- Behind a separator too many, one is left over for the last field. -/
theorem splitSep_left_over (front : Bytes) {middle : Bytes} (among : SEP ∈ middle) :
    ∃ first rest, splitSep (front ++ SEP :: middle) = some (first, rest) ∧ SEP ∈ rest := by
  by_cases early : SEP ∈ front
  · rcases List.eq_append_cons_of_mem early with ⟨first, rest, rfl, absent⟩
    refine ⟨first, rest ++ SEP :: middle, ?_, by simp⟩
    rw [List.append_assoc, List.cons_append]
    apply splitSep_append
    rintro byte member rfl
    exact absent member
  · refine ⟨front, middle, ?_, among⟩
    apply splitSep_append
    rintro byte member rfl
    exact early member

theorem Row.front_length (record : Row) : (encodePointer record.pointer ++
    padLeft IDXLEN_SZ (decimal record.text.length)).length = PTR_SZ + IDXLEN_SZ := by
  rw [List.length_append, encodePointer_length, record.lengthField]

theorem Row.front_pointer (record : Row) : atol ((encodePointer record.pointer ++
    padLeft IDXLEN_SZ (decimal record.text.length)).take PTR_SZ) = record.pointer.1 := by
  rw [List.take_left' (encodePointer_length _), atol_encodePointer]

theorem Row.front_idxlen (record : Row) : atol ((encodePointer record.pointer ++
    padLeft IDXLEN_SZ (decimal record.text.length)).drop PTR_SZ) = record.text.length := by
  have read : atol (padLeft IDXLEN_SZ (decimal record.text.length) ++ []) =
      record.text.length := atol_padLeft (by simp)
  rw [List.append_nil] at read
  rw [List.drop_left' (encodePointer_length _), read]

/-- A record is read in two steps, between which others may write it. -/
theorem readidx_guarded {post : Int → DB → Stage → Prop} {place : Nat} (behind : place ≠ 0)
    (known : sizes place ≠ none)
    (continued : ∀ (pointer : Nat) (db' : DB) sizes' datoff, Grows sizes sizes' →
      sizes'.Leads pointer → OnRow sizes' db' place datoff → db'.ptrval = pointer →
      db'.chainoff = db.chainoff → db'.ptroff = db.ptroff →
        post pointer db' (.working sizes')) :
    Guarded process post (dbReadidx place) db (.working sizes) := by
  rcases Option.ne_none_iff_exists'.mp known with ⟨length, sized⟩
  have row_of : ∀ pieces : Pieces, Grows sizes pieces.sizes →
      ∃ record : Row, pieces.get place = some (.row record) ∧ record.text.length = length := by
    intro pieces grows
    rcases Option.bind_eq_some_iff.mp (grows _ _ sized) with ⟨piece, found, isRow⟩
    rcases Piece.size_eq_some isRow with ⟨record, rfl, isLength⟩
    exact ⟨record, found, isLength⟩
  unfold dbReadidx
  simp only [Int.natCast_eq_zero, behind, if_false]
  apply bind_guarded
  apply lseekIdx_guarded
  apply bind_guarded
  change Guarded process _ (readIdx (PTR_SZ + IDXLEN_SZ) >>= _) _ _
  apply bind_guarded
  apply readIdx_guarded
  intro pieces wellFormed grows
  rcases row_of pieces grows with ⟨record, found, isLength⟩
  refine ⟨pieces.sizes, Grows.refl _, _, Pieces.pread_front found, ?_⟩
  have leads : Sizes.Leads pieces.sizes record.pointer :=
    wellFormed.linked _ (mem_of_itemAt found) _ rfl
  have limits : ¬ ((record.text.length : Int) < IDXLEN_MIN ∨
      (record.text.length : Int) > IDXLEN_MAX) := by
    have := record.length_limits
    omega
  simp only [record.front_length, ne_eq, not_true_eq_false, if_false, record.front_pointer,
    record.front_idxlen, limits, Int.toNat_natCast]
  apply bind_guarded
  change Guarded process _ (modify _ >>= _) _ _
  apply bind_guarded
  change Guarded process _ (readIdx record.text.length >>= _) _ _
  apply bind_guarded
  apply readIdx_guarded
  intro pieces' wellFormed' grows'
  rcases row_of pieces' (grows.trans grows') with ⟨record', found', isLength'⟩
  rw [isLength, ← isLength']
  refine ⟨pieces.sizes, grows', _, Pieces.pread_text found', ?_⟩
  have last : record'.text.getLast? = some NEWLINE := recordText_getLast _ _ _
  have text : cString record'.text.dropLast =
      record'.key ++ SEP :: (decimal record'.datoff ++ SEP :: decimal record'.datlen) :=
    (cString_recordText record'.noNul _ _).trans (recordText_dropLast _ _ _)
  by_cases inKey : SEP ∈ record'.key
  · rcases List.eq_append_cons_of_mem inKey with ⟨front, rest, isKey, absent⟩
    have first : splitSep (cString record'.text.dropLast) = some (front, rest ++ SEP ::
        (decimal record'.datoff ++ SEP :: decimal record'.datlen)) := by
      rw [text, isKey, List.append_assoc, List.cons_append]
      apply splitSep_append
      rintro byte member rfl
      exact absent member
    have among : SEP ∈ decimal record'.datoff ++ SEP :: decimal record'.datlen := by simp
    rcases splitSep_left_over rest among with ⟨datoff, ptr2, second, left⟩
    simp only [not_true_eq_false, if_false, last, first, second, left, if_true]
    apply bind_guarded
    exact fail_guarded (by decide)
  · have noSep : ∀ byte ∈ record'.key, byte ≠ SEP := by
      rintro byte member rfl
      exact inKey member
    have datoffLimit : ¬ (record'.datoff : Int) < 0 := by omega
    have datlenLimits : ¬ ((record'.datlen : Int) ≤ 0 ∨ (record'.datlen : Int) > DATLEN_MAX) := by
      have := record'.datlen_pos
      have := record'.datlen_le
      omega
    simp only [not_true_eq_false, if_false, last, text, splitSep_append noSep, splitSep_numbers,
      sep_notMem_decimal, atol_of_decimal, datoffLimit, datlenLimits, Int.toNat_natCast]
    apply bind_guarded
    apply modify_guarded
    apply bind_guarded
    apply get_guarded
    apply pure_guarded
    refine continued record.pointer _ _ record'.datoff grows leads ?_ rfl rfl rfl
    exact
      { idxoff := rfl
        isDatoff := rfl
        noNul := record'.noNul
        datlen_pos := record'.datlen_pos
        datlen_le := record'.datlen_le
        sized := (grows _ _ sized).trans (congrArg some isLength'.symm) }

/-! ## Searching -/

/-- The structure tells of a record that was found, with the pointer in it and the
pointer to it. -/
structure Located (sizes : Sizes) (db : DB) (place datoff last pointer : Nat) : Prop where
  row : OnRow sizes db place datoff
  ptrval : db.ptrval = pointer
  leads : sizes.Leads pointer
  ptroff : db.ptroff = last
  has : sizes.HasPointer last

section Search

variable {post : Int → DB → Stage → Prop} {key : Bytes}

theorem findKey_guarded {bound offset last : Nat} (leads : sizes.Leads offset)
    (isLast : db.ptroff = last) (has : sizes.HasPointer last)
    (missing : ∀ (db' : DB) sizes', Grows sizes sizes' → db'.chainoff = db.chainoff →
      post 0 db' (.working sizes'))
    (found : ∀ (db' : DB) sizes' place datoff last pointer, place ≠ 0 → Grows sizes sizes' →
      db'.chainoff = db.chainoff → Located sizes' db' place datoff last pointer →
        post place db' (.working sizes')) :
    Guarded process post (findKey key bound offset) db (.working sizes) := by
  induction bound generalizing offset last sizes db with
  | zero => exact fail_guarded (by decide)
  | succ bound hypothesis =>
      rw [findKey]
      by_cases isEnd : offset = 0
      · rw [if_pos (Int.natCast_eq_zero.mpr isEnd)]
        exact pure_guarded (missing db sizes (Grows.refl _) rfl)
      rw [if_neg (by omega)]
      have known : sizes offset ≠ none := leads.resolve_left isEnd
      apply bind_guarded
      apply readidx_guarded isEnd known
      intro pointer db' sizes' datoff grows leads' row isPointer chainoff ptroff
      apply bind_guarded
      apply get_guarded
      split
      · apply pure_guarded
        apply found db' sizes' offset datoff last pointer isEnd grows chainoff
        exact
          { row := row
            ptrval := isPointer
            leads := leads'
            ptroff := ptroff.trans isLast
            has := grows.hasPointer has }
      · apply bind_guarded
        apply modify_guarded
        apply hypothesis leads' rfl (Or.inr (grows.known known))
        · intro db'' sizes'' grows' chainoff'
          exact missing db'' sizes'' (grows.trans grows') (chainoff'.trans chainoff)
        · intro db'' sizes'' place datoff' last' pointer' positive grows' chainoff'
          exact found db'' sizes'' place datoff' last' pointer' positive (grows.trans grows')
            (chainoff'.trans chainoff)

theorem chain_hasPointer (sizes : Sizes) (chain : Chain) :
    sizes.HasPointer (headOffset chain) := by
  refine Or.inl ⟨chain.1 + 1, Nat.succ_lt_succ chain.2, ?_⟩
  rw [headOffset, Nat.add_mul, Nat.one_mul]
  rfl

theorem free_hasPointer (sizes : Sizes) : sizes.HasPointer FREE_OFF :=
  Or.inl ⟨0, Nat.succ_pos _, rfl⟩

theorem findAndLock_guarded {writelock : Bool}
    (missing : ∀ (db' : DB) sizes', db'.chainoff = headOffset (chainOf key) →
      post (-1) db' (.working sizes'))
    (found : ∀ (db' : DB) sizes' place datoff last pointer,
      db'.chainoff = headOffset (chainOf key) → Located sizes' db' place datoff last pointer →
        post 0 db' (.working sizes')) :
    Guarded process post (dbFindAndLock key writelock) db (.working sizes) := by
  unfold dbFindAndLock
  apply bind_guarded
  apply modify_guarded
  apply bind_guarded
  apply modify_guarded
  apply bind_guarded
  apply get_guarded
  apply bind_guarded
  have quiet : ∀ kind start, ¬ Disturbs (.lock .idx kind start 1) := fun _ _ => id
  apply quiet_guarded (quiet _ _)
  intro _
  apply bind_guarded
  apply get_guarded
  apply bind_guarded
  apply readptr_guarded (chain_hasPointer sizes (chainOf key))
  intro pointer sizes' position _ leads
  apply bind_guarded
  apply findKey_guarded leads rfl (chain_hasPointer sizes' (chainOf key))
  · intro db' sizes'' _ chainoff
    rw [if_pos rfl]
    exact pure_guarded (missing db' sizes'' chainoff)
  · intro db' sizes'' place datoff last pointer' positive _ chainoff located
    rw [if_neg (by omega)]
    exact pure_guarded (found db' sizes'' place datoff last pointer' chainoff located)

/-- What the search of `_db_findfree` comes to. -/
theorem findSizes_guarded {post : Int × Int → DB → Stage → Prop} {keylen datlen : Nat}
    {bound offset last : Nat} (leads : sizes.Leads offset) (has : sizes.HasPointer last)
    (missing : ∀ (db' : DB) sizes' (save : Int), Grows sizes sizes' → db'.chainoff = db.chainoff →
      post (0, save) db' (.working sizes'))
    (found : ∀ (db' : DB) sizes' (place datoff last pointer : Nat), place ≠ 0 →
      Grows sizes sizes' → db'.chainoff = db.chainoff → OnRow sizes' db' place datoff →
      db'.idxbuf.length = keylen → db'.datlen = datlen → db'.ptrval = pointer →
      sizes'.Leads pointer → sizes'.HasPointer last → post (place, last) db' (.working sizes')) :
    Guarded process post (findSizes keylen datlen bound last offset) db (.working sizes) := by
  induction bound generalizing offset last sizes db with
  | zero => exact fail_guarded (by decide)
  | succ bound hypothesis =>
      rw [findSizes]
      by_cases isEnd : offset = 0
      · rw [if_pos (Int.natCast_eq_zero.mpr isEnd)]
        exact pure_guarded (missing db sizes last (Grows.refl _) rfl)
      rw [if_neg (by omega)]
      have known : sizes offset ≠ none := leads.resolve_left isEnd
      apply bind_guarded
      apply readidx_guarded isEnd known
      intro pointer db' sizes' datoff grows leads' row isPointer chainoff _
      apply bind_guarded
      apply get_guarded
      apply bind_guarded
      apply get_guarded
      split
      · rename_i fits
        apply pure_guarded
        exact found db' sizes' offset datoff last pointer isEnd grows chainoff row fits.1 fits.2
          isPointer leads' (grows.hasPointer has)
      · apply hypothesis leads' (Or.inr (grows.known known))
        · intro db'' sizes'' save grows' chainoff'
          exact missing db'' sizes'' save (grows.trans grows') (chainoff'.trans chainoff)
        · intro db'' sizes'' place datoff' last' pointer' positive grows' chainoff'
          exact found db'' sizes'' place datoff' last' pointer' positive (grows.trans grows')
            (chainoff'.trans chainoff)

end Search

/-! ## Writing -/

section Write

variable {post : Unit → DB → Stage → Prop}

theorem writeptr_guarded {offset value : Nat} (has : sizes.HasPointer offset)
    (leads : sizes.Leads value)
    (continued : ∀ position, post () { db with idxPosition := position } (.working sizes)) :
    Guarded process post (dbWriteptr offset value) db (.working sizes) := by
  unfold dbWriteptr
  by_cases fits : value ≤ PTR_MAX
  · have inRange : ¬ ((value : Int) < 0 ∨ (value : Int) > PTR_MAX) := by omega
    simp only [inRange, if_false, printInt_natCast]
    apply bind_guarded
    apply lseekIdx_guarded
    apply bind_guarded
    apply get_guarded
    apply bind_guarded
    have leads' : sizes.Leads (⟨value, fits⟩ : Pointer) := leads
    exact storePointer_guarded has leads' (continued _)
  · have outOfRange : (value : Int) < 0 ∨ (value : Int) > PTR_MAX := by omega
    simp only [outOfRange, if_true]
    apply bind_guarded
    exact fail_guarded (by decide)

/-- Writing the data file does nothing to the index file. -/
theorem writeDat_guarded {text : Bytes}
    (continued : ∀ position, post () { db with datPosition := position } (.working sizes)) :
    Guarded process post (writeDat text) db (.working sizes) := by
  apply bind_guarded
  apply get_guarded
  apply bind_guarded
  have quiet : ¬ Disturbs (.write .dat db.datPosition text) := id
  exact quiet_guarded quiet fun _ => continued _

theorem writedat_set_guarded {data : Bytes} {offset : Nat}
    (continued : ∀ position, post ()
      { db with datoff := offset, datlen := data.length + 1, datPosition := position }
      (.working sizes)) :
    Guarded process post (dbWritedat data (.set offset)) db (.working sizes) := by
  unfold dbWritedat
  apply bind_guarded
  apply lseekDat_guarded
  apply bind_guarded
  apply modify_guarded
  apply bind_guarded
  apply modify_guarded
  apply bind_guarded
  apply writeDat_guarded
  exact continued

theorem writedat_append_guarded {data : Bytes}
    (continued : ∀ (size : Nat) position, post ()
      { db with datoff := size, datlen := data.length + 1, datPosition := position }
      (.working sizes)) :
    Guarded process post (dbWritedat data .append) db (.working sizes) := by
  unfold dbWritedat
  apply bind_guarded
  have lock : ¬ Disturbs (.lock .dat .write 0 0) := id
  apply quiet_guarded lock
  intro _
  apply bind_guarded
  have size : ¬ Disturbs (.size .dat) := id
  apply quiet_guarded size
  intro size
  apply bind_guarded
  apply lseekDat_guarded
  apply bind_guarded
  apply modify_guarded
  apply bind_guarded
  apply modify_guarded
  apply bind_guarded
  apply writeDat_guarded
  intro position
  have unlock : ¬ Disturbs (.unlock .dat 0 0) := id
  exact quiet_guarded unlock fun _ => continued size position

/-- The end of `_db_writeidx`, behind its checks. -/
def placeRecord (text : Bytes) (whence : Whence) : Library Unit := do
  match whence with
  | .append =>
      perform (.lock .idx .write recordsOffset 0)
      let size : Nat ← perform (.size .idx)
      lseekIdx size
      modify fun db => { db with idxoff := size }
  | .set offset =>
      lseekIdx offset
      modify fun db => { db with idxoff := offset }
  writeIdx text
  match whence with
  | .append => perform (.unlock .idx recordsOffset 0)
  | .set _ => return ()

/-- What `_db_writeidx` writes is a record, or the process ends. -/
theorem writeidx_checked {key : Bytes} {datoff : Nat} {whence : Whence} {value : Nat}
    (isDatoff : db.datoff = datoff) (noNul : ∀ byte ∈ key, byte ≠ 0) (positive : 0 < db.datlen)
    (bounded : db.datlen ≤ DATLEN_MAX)
    (continued : ∀ row : Row, row.text = recordText key datoff db.datlen → row.pointer.1 = value →
      Guarded process post (placeRecord (Piece.row row).encode whence)
        { db with ptrval := value, idxbuf := row.text } here) :
    Guarded process post (dbWriteidx key whence value) db here := by
  unfold dbWriteidx
  apply bind_guarded
  apply modify_guarded
  by_cases fits : value ≤ PTR_MAX
  · have inRange : ¬ ((value : Int) < 0 ∨ (value : Int) > PTR_MAX) := by omega
    have text : key ++ SEP :: printInt db.datoff ++ SEP :: decimal db.datlen ++ [NEWLINE] =
        recordText key datoff db.datlen := by
      rw [isDatoff, printInt_natCast]
      rfl
    simp only [inRange, if_false]
    apply bind_guarded
    apply modify_guarded
    apply bind_guarded
    apply get_guarded
    by_cases tooLong : (recordText key datoff db.datlen).length < IDXLEN_MIN ∨
        (recordText key datoff db.datlen).length > IDXLEN_MAX
    · simp only [text, tooLong, if_true]
      apply bind_guarded
      exact fail_guarded (by decide)
    · simp only [text, tooLong, if_false, printInt_natCast]
      rw [not_or, Nat.not_lt, Nat.not_lt] at tooLong
      have placed := continued
        { pointer := ⟨value, fits⟩
          key := key
          datoff := datoff
          datlen := db.datlen
          noNul := noNul
          datlen_pos := positive
          datlen_le := bounded
          length_ge := tooLong.1
          length_le := tooLong.2 } rfl rfl
      rw [Piece.encode, Row.rest, ← List.append_assoc] at placed
      exact placed
  · have outOfRange : (value : Int) < 0 ∨ (value : Int) > PTR_MAX := by omega
    simp only [outOfRange, if_true]
    apply bind_guarded
    exact fail_guarded (by decide)

theorem writeidx_set_guarded {key : Bytes} {place datoff value : Nat}
    (isDatoff : db.datoff = datoff) (noNul : ∀ byte ∈ key, byte ≠ 0) (positive : 0 < db.datlen)
    (bounded : db.datlen ≤ DATLEN_MAX)
    (sized : sizes place = some (recordText key datoff db.datlen).length)
    (leads : sizes.Leads value)
    (continued : ∀ idxbuf position, post ()
      { db with ptrval := value, idxbuf := idxbuf, idxoff := place, idxPosition := position }
      (.working sizes)) :
    Guarded process post (dbWriteidx key (.set place) value) db (.working sizes) := by
  apply writeidx_checked isDatoff noNul positive bounded
  intro row isText isValue
  apply bind_guarded
  apply lseekIdx_guarded
  apply bind_guarded
  apply modify_guarded
  apply bind_guarded
  apply bind_guarded
  apply get_guarded
  apply bind_guarded
  apply storeRow_guarded
  · rw [isText]
    exact sized
  · rw [isValue]
    exact leads
  · exact continued _ _

theorem writeidx_append_guarded {key : Bytes} {datoff value : Nat}
    (isDatoff : db.datoff = datoff) (noNul : ∀ byte ∈ key, byte ≠ 0) (positive : 0 < db.datlen)
    (bounded : db.datlen ≤ DATLEN_MAX) (leads : sizes.Leads value)
    (continued : ∀ (place : Nat) sizes' idxbuf position, Grows sizes sizes' →
      sizes' place ≠ none → post ()
        { db with ptrval := value, idxbuf := idxbuf, idxoff := place, idxPosition := position }
        (.working sizes')) :
    Guarded process post (dbWriteidx key .append value) db (.working sizes) := by
  apply writeidx_checked isDatoff noNul positive bounded
  intro row _ isValue
  apply bind_guarded
  apply lockEnd_guarded
  intro length
  apply bind_guarded
  apply sizeEnd_guarded
  apply bind_guarded
  apply lseekIdx_guarded
  apply bind_guarded
  apply modify_guarded
  apply bind_guarded
  apply bind_guarded
  apply get_guarded
  apply bind_guarded
  apply appendRow_guarded
  · rw [isValue]
    exact leads
  intro sizes' grows known
  have unlock : ¬ Disturbs (.unlock .idx recordsOffset 0) := id
  apply quiet_guarded unlock
  intro _
  apply continued length sizes' _ _ grows
  rw [known]
  exact Option.some_ne_none _

end Write

/-! ## Deleting and storing -/

theorem lockFree_quiet (kind : LockKind) : ¬ Disturbs (.lock .idx kind FREE_OFF 1) := id

theorem unlock_quiet (start length : Nat) : ¬ Disturbs (.unlock .idx start length) := id

theorem blank_noNul {length : Nat} : ∀ byte ∈ List.replicate length SPACE, byte ≠ 0 := by
  rintro byte member rfl
  cases List.eq_of_mem_replicate member

theorem dodelete_guarded {post : Unit → DB → Stage → Prop} {place datoff last pointer : Nat}
    (located : Located sizes db place datoff last pointer)
    (continued : ∀ (db' : DB) sizes', db'.chainoff = db.chainoff →
      post () db' (.working sizes')) :
    Guarded process post dbDodelete db (.working sizes) := by
  have row := located.row
  have same : (List.replicate (db.datlen - 1) SPACE).length + 1 = db.datlen := by
    have := row.datlen_pos
    rw [List.length_replicate]
    omega
  unfold dbDodelete
  apply bind_guarded
  apply modify_guarded
  apply bind_guarded
  apply modify_guarded
  apply bind_guarded
  apply quiet_guarded (lockFree_quiet _)
  intro _
  apply bind_guarded
  apply get_guarded
  apply bind_guarded
  apply get_guarded
  rw [row.isDatoff]
  apply bind_guarded
  apply writedat_set_guarded
  intro _
  apply bind_guarded
  apply readptr_guarded (free_hasPointer sizes)
  intro freeptr sizes' _ grows leads
  apply bind_guarded
  apply get_guarded
  apply bind_guarded
  apply get_guarded
  apply bind_guarded
  apply get_guarded
  rw [row.idxoff]
  apply bind_guarded
  have blank : db.idxbuf.map (fun _ => SPACE) = List.replicate db.idxbuf.length SPACE :=
    List.map_const'
  have sized : sizes' place = some (recordText (db.idxbuf.map fun _ => SPACE) datoff
      ((List.replicate (db.datlen - 1) SPACE).length + 1)).length := by
    rw [grows _ _ row.sized, same]
    simp [recordText]
  apply writeidx_set_guarded rfl _ (Nat.succ_pos _) (same.le.trans row.datlen_le) sized leads
  · intro _ _
    apply bind_guarded
    apply get_guarded
    apply bind_guarded
    apply writeptr_guarded (free_hasPointer sizes')
    · exact Or.inr (row.grow grows).known
    intro _
    apply bind_guarded
    apply get_guarded
    rw [located.ptroff, located.ptrval]
    apply bind_guarded
    apply writeptr_guarded (grows.hasPointer located.has) (grows.leads located.leads)
    intro _
    exact quiet_guarded (unlock_quiet _ _) fun _ => continued _ _ rfl
  · rw [blank]
    exact blank_noNul

theorem findfree_guarded {post : Int → DB → Stage → Prop} {keylen datlen : Nat}
    (missing : ∀ (db' : DB) sizes', Grows sizes sizes' → db'.chainoff = db.chainoff →
      post (-1) db' (.working sizes'))
    (found : ∀ (db' : DB) sizes' (place datoff : Nat), Grows sizes sizes' →
      db'.chainoff = db.chainoff → OnRow sizes' db' place datoff → db'.idxbuf.length = keylen →
      db'.datlen = datlen → post 0 db' (.working sizes')) :
    Guarded process post (dbFindfree keylen datlen) db (.working sizes) := by
  unfold dbFindfree
  apply bind_guarded
  apply quiet_guarded (lockFree_quiet _)
  intro _
  apply bind_guarded
  apply readptr_guarded (free_hasPointer sizes)
  intro first sizes' _ grows leads
  apply bind_guarded
  apply findSizes_guarded leads (free_hasPointer sizes')
  · intro db' sizes'' _ grows' chainoff
    dsimp only
    rw [if_pos rfl]
    apply bind_guarded
    apply pure_guarded
    apply bind_guarded
    apply quiet_guarded (unlock_quiet _ _)
    intro _
    exact pure_guarded (missing db' sizes'' (grows.trans grows') chainoff)
  · intro db' sizes'' place datoff last pointer positive grows' chainoff row keylen datlen isPointer
      leads' has
    dsimp only
    rw [if_neg (by omega)]
    apply bind_guarded
    apply bind_guarded
    change Guarded process _ (dbWriteptr last db'.ptrval) db' _
    rw [isPointer]
    apply writeptr_guarded has leads'
    intro _
    apply bind_guarded
    apply pure_guarded
    apply bind_guarded
    apply quiet_guarded (unlock_quiet _ _)
    intro _
    apply pure_guarded
    refine found _ sizes'' place datoff (grows.trans grows') ?_ ?_ ?_ ?_
    · exact chainoff
    · exact { row with }
    · exact keylen
    · exact datlen

/-! ## Functions that only read -/

structure Calm {Result : Type} (function : Library Result) : Prop where
  avoids : ∀ db, (function db).Avoids Disturbs

section Calm

variable {Result Next : Type}

theorem calm_bind {function : Library Result} {rest : Result → Library Next}
    (first : Calm function) (second : ∀ result, Calm (rest result)) : Calm (function >>= rest) :=
  ⟨fun db => (first.avoids db).bind fun outcome => (second outcome.1).avoids outcome.2⟩

@[simp] theorem calm_pure (result : Result) : Calm (pure result) := ⟨fun _ => trivial⟩

@[simp] theorem calm_get : Calm get := ⟨fun _ => trivial⟩

@[simp] theorem calm_modify (change : DB → DB) : Calm (modify change) := ⟨fun _ => trivial⟩

@[simp] theorem calm_fail {failure : Failure} (other : failure ≠ .readptrRead) :
    Calm (fail failure : Library Result) :=
  ⟨fun _ => ⟨other, fun never => nomatch never⟩⟩

theorem calm_perform {command : Command} (quiet : ¬ Disturbs command) : Calm (perform command) :=
  ⟨fun _ => ⟨quiet, fun _ => trivial⟩⟩

theorem calm_ite {condition : Prop} [Decidable condition] {left right : Library Result}
    (first : Calm left) (second : Calm right) : Calm (if condition then left else right) := by
  split
  · exact first
  · exact second

@[simp] theorem calm_read (file : File) (offset count : Nat) :
    @Calm Bytes (perform (.read file offset count)) := calm_perform id

@[simp] theorem calm_lseekIdx (offset : Int) : Calm (lseekIdx offset) := by
  unfold lseekIdx
  repeat' first | intro _ | with_reducible apply calm_bind | with_reducible apply calm_ite | simp

@[simp] theorem calm_lseekDat (offset : Int) : Calm (lseekDat offset) := by
  unfold lseekDat
  repeat' first | intro _ | with_reducible apply calm_bind | with_reducible apply calm_ite | simp

@[simp] theorem calm_readIdx (count : Nat) : Calm (readIdx count) := by
  unfold readIdx
  repeat' first | intro _ | with_reducible apply calm_bind | with_reducible apply calm_ite | simp

@[simp] theorem calm_readDat (count : Nat) : Calm (readDat count) := by
  unfold readDat
  repeat' first | intro _ | with_reducible apply calm_bind | with_reducible apply calm_ite | simp

@[simp] theorem calm_dbReaddat : Calm dbReaddat := by
  unfold dbReaddat
  repeat' first | intro _ | with_reducible apply calm_bind | with_reducible apply calm_ite | simp

@[simp] theorem calm_dbReadidx (offset : Int) : Calm (dbReadidx offset) := by
  unfold dbReadidx
  repeat' first | intro _ | with_reducible apply calm_bind | with_reducible apply calm_ite |
    (simp; done) | split

@[simp] theorem calm_nextNonblank (bound : Nat) : Calm (nextNonblank bound) := by
  induction bound with
  | zero => exact calm_fail (by decide)
  | succ bound hypothesis =>
      unfold nextNonblank
      repeat' first | intro _ | with_reducible apply calm_bind | with_reducible apply calm_ite |
        exact hypothesis | simp

theorem calm_dbNextrec : Calm dbNextrec := by
  have lock : ¬ Disturbs (.lock .idx .read FREE_OFF 1) := id
  have unlock : ¬ Disturbs (.unlock .idx FREE_OFF 1) := id
  unfold dbNextrec
  apply calm_bind (calm_perform lock)
  intro _
  repeat' first | intro _ | exact calm_perform unlock | with_reducible apply calm_bind |
    with_reducible apply calm_ite | simp

theorem calm_dbRewind : Calm dbRewind := by
  unfold dbRewind
  exact calm_bind (calm_lseekIdx _) fun _ => calm_modify _

/-- The process is where it was behind such a function. -/
theorem Calm.guarded {function : Library Result} (calm : Calm function) :
    Guarded process (fun _ _ there => there = .working sizes) function db (.working sizes) := by
  have avoids := calm.avoids db
  rw [Guarded]
  generalize function db = program at avoids
  induction program with
  | done outcome => rfl
  | call command next hypothesis =>
      have first : Guarded process (fun response _ there => (libraryLogic Process).Safe process
          (fun _ there => there = .working sizes) (next response) there)
          (perform command) db (.working sizes) :=
        quiet_guarded avoids.1 fun response => hypothesis response (avoids.2 response)
      exact LocalLogic.Safe.bind first

end Calm

/-! ## The calls -/

/-- The process goes on working, whatever it has come to know. -/
def Works {Result : Type} (_ : Result) (_ : DB) (there : Stage) : Prop :=
  ∃ sizes, there = .working sizes

section Calls

variable {key data : CString} {ptrval : Nat} {flag : Int} {chain : Chain}

theorem storeAppend_guarded (leads : sizes.Leads ptrval) (chainoff : db.chainoff = headOffset chain)
    (fits : data.1.length + 1 ≤ DATLEN_MAX) :
    Guarded process Works (storeAppend key.1 data.1 ptrval) db (.working sizes) := by
  unfold storeAppend
  apply bind_guarded
  apply writedat_append_guarded
  intro size _
  apply bind_guarded
  apply writeidx_append_guarded rfl key.2 (Nat.succ_pos _) fits leads
  intro place sizes' _ _ _ known
  apply bind_guarded
  apply get_guarded
  apply bind_guarded
  apply get_guarded
  rw [chainoff]
  apply writeptr_guarded (chain_hasPointer sizes' chain) (Or.inr known)
  exact fun _ => ⟨sizes', rfl⟩

theorem storeReuse_guarded {place datoff : Nat} (leads : sizes.Leads ptrval)
    (chainoff : db.chainoff = headOffset chain) (row : OnRow sizes db place datoff)
    (keylen : db.idxbuf.length = key.1.length) (datlen : db.datlen = data.1.length + 1) :
    Guarded process Works (storeReuse key.1 data.1 ptrval) db (.working sizes) := by
  have sized : sizes place = some (recordText key.1 datoff (data.1.length + 1)).length := by
    rw [row.sized, datlen]
    simp [recordText, keylen]
  unfold storeReuse
  apply bind_guarded
  apply get_guarded
  rw [row.isDatoff]
  apply bind_guarded
  apply writedat_set_guarded
  intro _
  apply bind_guarded
  apply get_guarded
  rw [row.idxoff]
  apply bind_guarded
  apply writeidx_set_guarded rfl key.2 (Nat.succ_pos _) (datlen ▸ row.datlen_le) sized leads
  intro _ _
  apply bind_guarded
  apply get_guarded
  apply bind_guarded
  apply get_guarded
  rw [chainoff]
  apply writeptr_guarded (chain_hasPointer sizes chain) (Or.inr row.known)
  exact fun _ => ⟨sizes, rfl⟩

theorem storeAbsent_guarded (chainoff : db.chainoff = headOffset chain)
    (fits : data.1.length + 1 ≤ DATLEN_MAX) :
    Guarded process Works (storeAbsent key.1 data.1 flag) db (.working sizes) := by
  unfold storeAbsent
  split
  · exact ⟨sizes, rfl⟩
  apply bind_guarded
  apply get_guarded
  rw [chainoff]
  apply bind_guarded
  apply readptr_guarded (chain_hasPointer sizes chain)
  intro ptrval sizes' _ _ leads
  apply bind_guarded
  apply findfree_guarded
  · intro db' sizes'' grows kept
    rw [if_pos (by decide)]
    apply bind_guarded
    apply (storeAppend_guarded (grows.leads leads) (kept.trans chainoff) fits).mono
    exact fun _ _ works => works
  · intro db' sizes'' place datoff grows kept row keylen datlen
    rw [if_neg (by decide)]
    apply bind_guarded
    apply (storeReuse_guarded (grows.leads leads) (kept.trans chainoff) row keylen datlen).mono
    exact fun _ _ works => works

theorem storePresent_guarded {place datoff last pointer : Nat}
    (located : Located sizes db place datoff last pointer)
    (chainoff : db.chainoff = headOffset chain) (fits : data.1.length + 1 ≤ DATLEN_MAX) :
    Guarded process Works (storePresent key.1 data.1 flag) db (.working sizes) := by
  unfold storePresent
  split
  · exact ⟨sizes, rfl⟩
  apply bind_guarded
  apply get_guarded
  split
  · apply bind_guarded
    apply dodelete_guarded located
    intro db' sizes' kept
    apply bind_guarded
    apply get_guarded
    rw [kept, chainoff]
    apply bind_guarded
    apply readptr_guarded (chain_hasPointer sizes' chain)
    intro ptrval sizes'' _ _ leads
    apply bind_guarded
    apply LocalLogic.Safe.mono
    · exact @storeAppend_guarded _ _ _ _ _ key data _ chain leads (kept.trans chainoff) fits
    · exact fun _ _ works => works
  · apply bind_guarded
    apply get_guarded
    rw [located.row.isDatoff]
    apply bind_guarded
    apply writedat_set_guarded
    exact fun _ => ⟨sizes, rfl⟩

/-- A call ends with the lock on its hash chain. -/
theorem unlockChain_guarded {Result : Type} {result : Result} :
    Guarded process Works (do
      perform (.unlock .idx (← get).chainoff.toNat 1)
      return result) db (.working sizes) := by
  apply bind_guarded
  apply get_guarded
  apply bind_guarded
  exact quiet_guarded (unlock_quiet _ _) fun _ => ⟨sizes, rfl⟩

theorem store_guarded :
    Guarded process Works (dbStore key.1 data.1 flag) db (.working sizes) := by
  unfold dbStore
  split
  · exact ⟨sizes, rfl⟩
  dsimp only
  split
  · apply bind_guarded
    exact fail_guarded (by decide)
  rename_i size
  have fits : data.1.length + 1 ≤ DATLEN_MAX := by omega
  apply bind_guarded
  apply findAndLock_guarded
  · intro db' sizes' chainoff
    rw [if_pos (by decide)]
    apply bind_guarded
    apply (storeAbsent_guarded chainoff fits).mono
    rintro ⟨rc, db''⟩ _ ⟨sizes'', rfl⟩
    exact unlockChain_guarded
  · intro db' sizes' place datoff last pointer chainoff located
    rw [if_neg (by decide)]
    apply bind_guarded
    apply (storePresent_guarded located chainoff fits).mono
    rintro ⟨rc, db''⟩ _ ⟨sizes'', rfl⟩
    exact unlockChain_guarded

theorem delete_guarded : Guarded process Works (dbDelete key.1) db (.working sizes) := by
  unfold dbDelete
  apply bind_guarded
  apply findAndLock_guarded
  · intro db' sizes' _
    exact unlockChain_guarded
  · intro db' sizes' place datoff last pointer _ located
    rw [if_pos rfl]
    apply bind_guarded
    apply dodelete_guarded located
    intro db'' sizes'' _
    exact unlockChain_guarded

theorem fetch_guarded : Guarded process Works (dbFetch key.1) db (.working sizes) := by
  unfold dbFetch
  apply bind_guarded
  apply findAndLock_guarded
  · intro db' sizes' _
    exact unlockChain_guarded
  · intro db' sizes' place datoff last pointer _ _
    rw [if_neg (by decide)]
    apply bind_guarded
    apply calm_dbReaddat.guarded.mono
    rintro ⟨found, db''⟩ _ rfl
    exact unlockChain_guarded

theorem execute_guarded (call : HandleCall) :
    Guarded process Works call.execute db (.working sizes) := by
  cases call with
  | call inner =>
      apply bind_guarded
      cases inner with
      | store key data flag =>
          apply bind_guarded
          exact store_guarded.mono fun _ _ works => works
      | delete key =>
          apply bind_guarded
          exact delete_guarded.mono fun _ _ works => works
      | fetch key =>
          apply bind_guarded
          exact fetch_guarded.mono fun _ _ works => works
  | nextrec =>
      apply bind_guarded
      exact calm_dbNextrec.guarded.mono fun _ _ same => ⟨sizes, same⟩
  | rewind => exact calm_dbRewind.guarded.mono fun _ _ same => ⟨sizes, same⟩

theorem useHandle_guarded (calls : List HandleCall) :
    Guarded process Works (useHandle calls) db (.working sizes) := by
  induction calls generalizing db sizes with
  | nil => exact ⟨sizes, rfl⟩
  | cons call calls hypothesis =>
      apply bind_guarded
      apply (execute_guarded call).mono
      rintro ⟨_, db'⟩ _ ⟨sizes', rfl⟩
      exact hypothesis

end Calls

end

end Apue.Database
