import Apue.Foundation.CutOff
import Apue.Printer.Status

/-! # Whether `printer_status` comes to an end

Every loop but one moves `cp` on or reads more from the printer. The search for the
end of the header goes round for ever where it does not find the end in what it has.
-/

namespace Apue.Printer.Status

open Apue.Foundation Ascii

def IsCut (access : Access) : Prop := access = .outOfRounds

/-! ## More rounds -/

section CutOff

variable {rounds more : Nat}

theorem outOfRounds_cutOff {Result : Type} (longer : Reader Result) :
    (Reader.outOfRounds : Reader Result).CutOff IsCut longer :=
  have isCut : IsCut .outOfRounds := rfl
  .stop isCut _ longer

theorem skipWhile_cutOff (test : Byte → Bool) (enough : rounds ≤ more) (cp : Nat) :
    (skipWhile test rounds cp).CutOff IsCut (skipWhile test more cp) := by
  induction rounds generalizing more cp with
  | zero => exact outOfRounds_cutOff _
  | succ rounds hypothesis =>
      rcases Nat.exists_eq_add_of_le' enough with ⟨extra, rfl⟩
      rw [← Nat.add_assoc, skipWhile, skipWhile]
      apply Program.CutOff.behind
      intro byte
      split
      · exact hypothesis (by omega) _
      · exact .refl _

theorem readString_cutOff (enough : rounds ≤ more) (cp : Nat) :
    (readString rounds cp).CutOff IsCut (readString more cp) := by
  induction rounds generalizing more cp with
  | zero => exact outOfRounds_cutOff _
  | succ rounds hypothesis =>
      rcases Nat.exists_eq_add_of_le' enough with ⟨extra, rfl⟩
      rw [← Nat.add_assoc, readString, readString]
      apply Program.CutOff.behind
      intro byte
      split
      · exact .refl _
      · exact (hypothesis (by omega) _).bind fun _ => .refl _

theorem seekC_cutOff (datsz bufsz : Nat) (enough : rounds ≤ more) (i : Nat) :
    (seekC datsz bufsz rounds i).CutOff IsCut (seekC datsz bufsz more i) := by
  induction rounds generalizing more i with
  | zero => exact outOfRounds_cutOff _
  | succ rounds hypothesis =>
      rcases Nat.exists_eq_add_of_le' enough with ⟨extra, rfl⟩
      rw [← Nat.add_assoc, seekC, seekC]
      apply Program.CutOff.behind
      intro _
      apply Program.CutOff.behind
      intro byte
      split
      · exact hypothesis (by omega) _
      · exact .refl _

theorem findContentLength_cutOff (enough : rounds ≤ more) (cursor : Cursor) :
    (findContentLength rounds cursor).CutOff IsCut (findContentLength more cursor) := by
  induction rounds generalizing more cursor with
  | zero => exact outOfRounds_cutOff _
  | succ rounds hypothesis =>
      rcases Nat.exists_eq_add_of_le' enough with ⟨extra, rfl⟩
      have enough' : rounds ≤ extra + rounds := Nat.le_add_left _ _
      rw [← Nat.add_assoc, findContentLength, findContentLength]
      apply (seekC_cutOff _ _ enough' _).bind
      intro i
      apply Program.CutOff.behind
      rintro (_ | cursor)
      · exact .refl _
      · apply Program.CutOff.behind
        intro same
        split
        · apply (skipWhile_cutOff _ enough' _).bind
          intro contentlen
          apply (skipWhile_cutOff _ enough' _).bind
          intro cp
          apply Program.CutOff.behind
          intro _
          apply Program.CutOff.behind
          intro _
          exact (readString_cutOff enough' _).bind fun _ => .refl _
        · exact hypothesis enough' _

theorem seekEnd_cutOff (datsz bufsz : Nat) (enough : rounds ≤ more) (i : Nat) :
    (seekEnd datsz bufsz rounds i).CutOff IsCut (seekEnd datsz bufsz more i) := by
  induction rounds generalizing more i with
  | zero => exact outOfRounds_cutOff _
  | succ rounds hypothesis =>
      rcases Nat.exists_eq_add_of_le' enough with ⟨extra, rfl⟩
      have again := hypothesis (Nat.le_add_left rounds extra) (i + 1)
      rw [← Nat.add_assoc, seekEnd, seekEnd]
      apply Program.CutOff.behind
      intro _
      split
      · apply Program.CutOff.behind
        intro first
        split
        · apply Program.CutOff.behind
          intro second
          split
          · apply Program.CutOff.behind
            intro third
            split
            · exact .refl _
            · exact again
          · exact again
        · exact again
      · exact .refl _

theorem findEnd_cutOff (enough : rounds ≤ more) (cursor : Cursor) :
    (findEnd rounds cursor).CutOff IsCut (findEnd more cursor) := by
  induction rounds generalizing more cursor with
  | zero => exact outOfRounds_cutOff _
  | succ rounds hypothesis =>
      rcases Nat.exists_eq_add_of_le' enough with ⟨extra, rfl⟩
      have enough' : rounds ≤ extra + rounds := Nat.le_add_left _ _
      rw [← Nat.add_assoc, findEnd, findEnd]
      apply Program.CutOff.behind
      intro _
      apply (seekEnd_cutOff _ _ enough' _).bind
      rintro ⟨found, i⟩
      apply Program.CutOff.behind
      rintro (_ | cursor)
      · exact .refl _
      · dsimp only
        split
        · exact .refl _
        · exact hypothesis enough' _

theorem ippStatus_cutOff (enough : rounds ≤ more) (jobid : Int) (cursor : Cursor) :
    (ippStatus rounds jobid cursor).CutOff IsCut (ippStatus more jobid cursor) := by
  apply (findContentLength_cutOff enough _).bind
  rintro (_ | ⟨cursor, len⟩)
  · exact .refl _
  · apply Program.CutOff.behind
    rintro (_ | cursor)
    · exact .refl _
    · exact (findEnd_cutOff enough _).bind fun _ => .refl _

theorem readResponse_cutOff (enough : rounds ≤ more) (jobid : Int) (nr : Nat)
    {again longer : Reader Bool} (cut : again.CutOff IsCut longer) :
    (readResponse rounds jobid nr again).CutOff IsCut (readResponse more jobid nr longer) := by
  apply Program.CutOff.behind
  intro _
  apply (skipWhile_cutOff _ enough _).bind
  intro statcode
  apply (skipWhile_cutOff _ enough _).bind
  intro cp
  dsimp only
  split
  · exact (readString_cutOff enough _).bind fun _ => cut
  · apply Program.CutOff.behind
    intro _
    apply (skipWhile_cutOff _ enough _).bind
    intro lineEnd
    apply Program.CutOff.behind
    intro _
    apply (readString_cutOff enough _).bind
    intro code
    split
    · exact cut
    · split
      · exact ippStatus_cutOff enough _ _
      · apply Program.CutOff.behind
        intro _
        exact (readString_cutOff enough _).bind fun _ => .refl _

theorem printerStatus_cutOff (enough : rounds ≤ more) (jobid : Int) :
    (printerStatus rounds jobid).CutOff IsCut (printerStatus more jobid) := by
  induction rounds generalizing more with
  | zero => exact outOfRounds_cutOff _
  | succ rounds hypothesis =>
      rcases Nat.exists_eq_add_of_le' enough with ⟨extra, rfl⟩
      have enough' : rounds ≤ extra + rounds := Nat.le_add_left _ _
      rw [← Nat.add_assoc, printerStatus, printerStatus]
      apply Program.CutOff.behind
      rintro (_ | nr)
      · exact .refl _
      · exact readResponse_cutOff enough' jobid nr (hypothesis enough')

end CutOff

/-! ## Rounds that are enough -/

def Uncut (access : Access) (_ : Buffer) : Prop := ¬ IsCut access

def Buffer.coming (buffer : Buffer) : Nat := (buffer.pieces.map List.length).sum

/-- No index of an access gets beyond this: the buffer only grows for a byte that comes. -/
def Buffer.reach (buffer : Buffer) : Nat := buffer.size + IOBUFSZ * buffer.coming

section Ends

variable {buffer after : Buffer} {rounds : Nat}

theorem Answers.load {index : Nat} {byte : Byte} (answers : Answers (.load index) buffer byte after) :
    index < buffer.size ∧ byte = buffer.memory index ∧ after = buffer := by
  rcases Option.ite_none_right_eq_some.mp answers with ⟨inside, same⟩
  cases same
  exact ⟨inside, rfl, rfl⟩

theorem Answers.store {index : Nat} {byte : Byte} {response : Unit}
    (answers : Answers (.store index byte) buffer response after) :
    index < buffer.size ∧ after = buffer.put index byte := by
  rcases Option.ite_none_right_eq_some.mp answers with ⟨inside, same⟩
  cases same
  exact ⟨inside, rfl⟩

theorem Answers.counts {i : Option Nat} {datsz bufsz : Nat} {response : Unit}
    (answers : Answers (.counts i datsz bufsz) buffer response after) : after = buffer := by
  cases answers
  rfl

theorem Answers.tread {offset count : Nat} {response : Option Nat}
    (answers : Answers (.tread offset count) buffer response after) :
    after.size = buffer.size ∧ ∀ nr, response = some nr →
      0 < nr ∧ after.coming + nr = buffer.coming := by
  have answered : buffer.answer (.tread offset count) = some (response, after) := answers
  rw [Buffer.answer] at answered
  cases isPieces : buffer.pieces with
  | nil =>
      simp only [isPieces] at answered
      cases answered
      exact ⟨rfl, nofun⟩
  | cons piece pieces =>
      simp only [isPieces] at answered
      split at answered
      · cases answered
        exact ⟨rfl, nofun⟩
      · rename_i notEmpty
        rcases Option.ite_none_right_eq_some.mp answered with ⟨_, same⟩
        cases same
        refine ⟨rfl, fun nr isCount => ?_⟩
        cases isCount
        refine ⟨List.length_pos_of_ne_nil notEmpty, ?_⟩
        rw [Buffer.coming, Buffer.coming, isPieces, List.map_cons, List.sum_cons, List.length_take]
        dsimp only
        split
        · omega
        · rw [List.map_cons, List.sum_cons, List.length_drop]
          omega

section Scans

variable {cp : Nat}

theorem skipWhile_ends (test : Byte → Bool) (some : 0 < rounds)
    (enough : buffer.size < cp + rounds) :
    (skipWhile test rounds cp).Always Answers Uncut
      (fun result after => after = buffer ∧ cp ≤ result ∧ result < buffer.size) buffer := by
  induction rounds generalizing cp with
  | zero => cases some
  | succ rounds hypothesis =>
      apply Program.Always.call nofun
      intro byte after answers
      rcases answers.load with ⟨inside, _, rfl⟩
      split
      · apply (hypothesis (by omega) (by omega)).mono
        rintro result final ⟨same, low, high⟩
        exact ⟨same, by omega, high⟩
      · exact ⟨rfl, le_refl _, inside⟩

theorem readString_ends (some : 0 < rounds) (enough : buffer.size < cp + rounds) :
    (readString rounds cp).Always Answers Uncut (fun _ after => after = buffer) buffer := by
  induction rounds generalizing cp with
  | zero => cases some
  | succ rounds hypothesis =>
      apply Program.Always.call nofun
      intro byte after answers
      rcases answers.load with ⟨inside, _, rfl⟩
      split
      · exact rfl
      · apply Program.Always.bind
        apply (hypothesis (by omega) (by omega)).mono
        rintro result final same
        exact same

theorem strncasecmp_ends (expected : Bytes) :
    (strncasecmp cp expected).Always Answers Uncut (fun _ after => after = buffer) buffer := by
  induction expected generalizing cp with
  | nil => exact rfl
  | cons other expected hypothesis =>
      apply Program.Always.call nofun
      intro byte after answers
      rcases answers.load with ⟨_, _, rfl⟩
      split
      · exact hypothesis
      · exact rfl

theorem seekC_ends (datsz bufsz : Nat) (some : 0 < rounds) (enough : buffer.size < cp + rounds) :
    (seekC datsz bufsz rounds cp).Always Answers Uncut
      (fun i after => after = buffer ∧ cp ≤ i ∧ i < buffer.size) buffer := by
  induction rounds generalizing cp with
  | zero => cases some
  | succ rounds hypothesis =>
      apply Program.Always.call nofun
      intro _ after answers
      rcases answers.counts with rfl
      apply Program.Always.call nofun
      intro byte after answers
      rcases answers.load with ⟨inside, _, rfl⟩
      split
      · apply (hypothesis (by omega) (by omega)).mono
        rintro result final ⟨same, low, high⟩
        exact ⟨same, by omega, high⟩
      · exact ⟨rfl, le_refl _, inside⟩

end Scans

/-- What a block "get more header" leaves behind. -/
structure Refilled (needed : Bool) (cursor : Cursor) (buffer : Buffer) (next : Cursor)
    (after : Buffer) : Prop where
  i : next.i = cursor.i
  sized : next.bufsz = after.size
  grown : buffer.size ≤ after.size
  reach : after.reach ≤ buffer.reach
  more : needed = true → next.i < next.datsz
  same : needed = false → next = cursor ∧ after = buffer

theorem treadMore_ends {off bsz : Nat} (sized : bsz = buffer.size) :
    (treadMore off bsz).Always Answers Uncut (fun result after => ∀ nr, result.1 = some nr →
      off < nr ∧ result.2 = after.size ∧ after.size = buffer.size ∧
        after.reach + IOBUFSZ ≤ buffer.reach) buffer := by
  apply Program.Always.call nofun
  intro response after answers
  rcases answers.tread with ⟨sameSize, received⟩
  cases response with
  | none => exact nofun
  | some count =>
      rintro nr isNr
      cases isNr
      rcases received count rfl with ⟨positive, fewer⟩
      refine ⟨by omega, sized.trans sameSize.symm, sameSize, ?_⟩
      have atLeast : after.coming + 1 ≤ buffer.coming := by omega
      have product := Nat.mul_le_mul_left IOBUFSZ atLeast
      rw [Nat.mul_add] at product
      rw [Buffer.reach, Buffer.reach, sameSize]
      omega

theorem readmore_ends {off bsz : Nat} (sized : bsz = buffer.size) :
    (readmore off bsz).Always Answers Uncut (fun result after => ∀ nr, result.1 = some nr →
      off < nr ∧ result.2 = after.size ∧ buffer.size ≤ after.size ∧ after.reach ≤ buffer.reach)
      buffer := by
  rw [readmore]
  split
  · apply Program.Always.call nofun
    intro _ grown answers
    cases answers
    have ends := @treadMore_ends { buffer with size := bsz + IOBUFSZ } off _ rfl
    apply ends.mono
    intro result after received nr isNr
    rcases received nr isNr with ⟨beyond, sizedAfter, sameSize, reach⟩
    have isReach : Buffer.reach { buffer with size := bsz + IOBUFSZ } = buffer.reach + IOBUFSZ := by
      rw [Buffer.reach, Buffer.reach, Buffer.coming, Buffer.coming, sized]
      dsimp only
      omega
    dsimp only at sameSize
    exact ⟨beyond, sizedAfter, by omega, by omega⟩
  · apply (treadMore_ends sized).mono
    intro result after received nr isNr
    rcases received nr isNr with ⟨beyond, sizedAfter, sameSize, reach⟩
    exact ⟨beyond, sizedAfter, by omega, by omega⟩

theorem getMoreIf_ends (needed : Bool) (cursor : Cursor) (sized : cursor.bufsz = buffer.size) :
    (getMoreIf needed cursor).Always Answers Uncut
      (fun result after => ∀ next, result = some next → Refilled needed cursor buffer next after)
      buffer := by
  rw [getMoreIf]
  cases needed with
  | false =>
      rw [if_neg Bool.false_ne_true]
      intro next isNext
      cases isNext
      exact ⟨rfl, sized, le_refl _, le_refl _, nofun, fun _ => ⟨rfl, rfl⟩⟩
  | true =>
      rw [if_pos rfl]
      apply Program.Always.bind
      apply (readmore_ends sized).mono
      rintro ⟨_ | nr, bufsz⟩ after received
      · exact nofun
      · rcases received nr rfl with ⟨beyond, sizedAfter, grown, reach⟩
        apply Program.Always.call nofun
        intro _ final answers
        rcases answers.counts with rfl
        intro next isNext
        cases isNext
        exact ⟨rfl, sizedAfter, grown, reach, fun _ => Nat.lt_add_left _ beyond, nofun⟩

theorem findContentLength_ends {cursor : Cursor} (sized : cursor.bufsz = buffer.size)
    (inside : cursor.i ≤ buffer.size) (enough : buffer.reach + 1 < cursor.i + rounds) :
    (findContentLength rounds cursor).Always Answers Uncut
      (fun result after => ∀ next len, result = some (next, len) →
        next.bufsz = after.size ∧ after.reach ≤ buffer.reach) buffer := by
  induction rounds generalizing cursor buffer with
  | zero =>
      have small : buffer.size ≤ buffer.reach := Nat.le_add_right _ _
      omega
  | succ rounds hypothesis =>
      have small : buffer.size ≤ buffer.reach := Nat.le_add_right _ _
      rw [findContentLength]
      apply Program.Always.bind
      apply (seekC_ends _ _ (by omega) (by omega)).mono
      rintro i after ⟨rfl, low, high⟩
      apply Program.Always.bind
      apply (getMoreIf_ends _ { cursor with i } sized).mono
      rintro (_ | next) filled more
      · exact nofun
      · have refilled := more next rfl
        have sameI : next.i = i := refilled.i
        have grown := refilled.grown
        have reach := refilled.reach
        have smaller : filled.size ≤ filled.reach := Nat.le_add_right _ _
        apply Program.Always.bind
        apply (strncasecmp_ends _).mono
        rintro same _ rfl
        split
        · apply Program.Always.bind
          apply (skipWhile_ends _ (by omega) (by omega)).mono
          rintro contentlen _ ⟨rfl, _, _⟩
          apply Program.Always.bind
          apply (skipWhile_ends _ (by omega) (by omega)).mono
          rintro cp _ ⟨rfl, _, _⟩
          apply Program.Always.call nofun
          intro _ written answers
          rcases answers.store with ⟨_, rfl⟩
          apply Program.Always.call nofun
          intro _ marked answers
          rcases answers.counts with rfl
          apply Program.Always.bind
          apply (readString_ends (by omega) (by rw [Buffer.put_size]; omega)).mono
          rintro number _ rfl
          intro final len isFinal
          cases isFinal
          exact ⟨refilled.sized, reach⟩
        · have again := @hypothesis _ { next with i := next.i + 1 } refilled.sized
            (by dsimp only; omega) (by dsimp only; omega)
          apply again.mono
          intro result final later found len isFound
          rcases later found len isFound with ⟨stillSized, further⟩
          exact ⟨stillSized, further.trans reach⟩

/-- The inner loop comes to a stop at an index below `datsz - 2`: it finds the end of
the header there, or an access is outside the buffer. -/
def Buffer.SearchStops (buffer : Buffer) (index : Nat) : Prop :=
  buffer.size ≤ index ∨ buffer.memory index = LF ∧
    (buffer.size ≤ index + 1 ∨ buffer.memory (index + 1) = CR ∧
      (buffer.size ≤ index + 2 ∨ buffer.memory (index + 2) = LF))

/-- What the search for the end of the header looks for is there. -/
def Buffer.EndBetween (buffer : Buffer) (i datsz : Nat) : Prop :=
  ∃ index, i ≤ index ∧ index + 2 < datsz ∧ buffer.SearchStops index

theorem Buffer.EndBetween.next {i datsz : Nat} (between : buffer.EndBetween i datsz)
    (goesOn : ¬ buffer.SearchStops i) : buffer.EndBetween (i + 1) datsz := by
  rcases between with ⟨index, low, high, stops⟩
  refine ⟨index, ?_, high, stops⟩
  apply Nat.lt_of_le_of_ne low
  rintro rfl
  exact goesOn stops

theorem seekEnd_ends (datsz bufsz : Nat) {i : Nat} (some : 0 < rounds)
    (enough : buffer.size < i + rounds) :
    (seekEnd datsz bufsz rounds i).Always Answers Uncut
      (fun result after => after = buffer ∧ (buffer.EndBetween i datsz → result.1 = true) ∧
        (datsz ≤ i → result = (false, i))) buffer := by
  induction rounds generalizing i with
  | zero => cases some
  | succ rounds hypothesis =>
      rw [seekEnd]
      apply Program.Always.call nofun
      intro _ after answers
      rcases answers.counts with rfl
      split
      · rename_i more
        -- A load that is answered shows that the search has not left the buffer.
        have again : i < after.size → ¬ after.SearchStops i →
            (seekEnd datsz bufsz rounds (i + 1)).Always Answers Uncut
              (fun result final => final = after ∧ (after.EndBetween i datsz → result.1 = true) ∧
                (datsz ≤ i → result = (false, i))) after := by
          intro inside goesOn
          apply (hypothesis (by omega) (by omega)).mono
          rintro result final ⟨same, found, _⟩
          exact ⟨same, fun between => found (between.next goesOn), fun beyond => by omega⟩
        apply Program.Always.call nofun
        intro first _ answers
        rcases answers.load with ⟨inside, rfl, rfl⟩
        split
        · rename_i isFirst
          apply Program.Always.call nofun
          intro second _ answers
          rcases answers.load with ⟨insideToo, rfl, rfl⟩
          split
          · rename_i isSecond
            apply Program.Always.call nofun
            intro third _ answers
            rcases answers.load with ⟨insideThree, rfl, rfl⟩
            split
            · apply Program.Always.call nofun
              intro _ final answers
              rcases answers.counts with rfl
              exact ⟨rfl, fun _ => rfl, fun beyond => by omega⟩
            · rename_i notThird
              apply again inside
              rintro (outside | ⟨_, outside | ⟨_, outside | isThird⟩⟩)
              · omega
              · omega
              · omega
              · exact notThird isThird
          · rename_i notSecond
            apply again inside
            rintro (outside | ⟨_, outside | ⟨isSecond, _⟩⟩)
            · omega
            · omega
            · exact notSecond isSecond
        · rename_i notFirst
          apply again inside
          rintro (outside | ⟨isFirst, _⟩)
          · omega
          · exact notFirst isFirst
      · rename_i atEnd
        refine ⟨rfl, fun between => ?_, fun _ => rfl⟩
        rcases between with ⟨index, low, high, _⟩
        omega

/-! ## The search for the end of the header -/

instance (buffer : Buffer) (index : Nat) : Decidable (buffer.SearchStops index) :=
  inferInstanceAs (Decidable (_ ∨ _))

instance (buffer : Buffer) (i datsz : Nat) : Decidable (buffer.EndBetween i datsz) :=
  decidable_of_iff (∃ index ∈ List.range datsz, i ≤ index ∧ index + 2 < datsz ∧
      buffer.SearchStops index)
    ⟨fun ⟨index, _, found⟩ => ⟨index, found⟩, fun ⟨index, low, high, stops⟩ =>
      ⟨index, List.mem_range.mpr (by omega), low, high, stops⟩⟩

/-- Where the search takes a round, it has nothing left or finds what it looks for. -/
def EndInReach : Access → Buffer → Prop
  | .lookForEnd i datsz, buffer => i < datsz → buffer.EndBetween i datsz
  | _, _ => True

instance : ∀ access buffer, Decidable (EndInReach access buffer)
  | .lookForEnd i datsz, buffer =>
      inferInstanceAs (Decidable (i < datsz → buffer.EndBetween i datsz))
  | .load _, _ | .store _ _, _ | .tread _ _, _ | .realloc _, _ | .counts _ _ _, _
  | .outOfRounds, _ => inferInstanceAs (Decidable True)

theorem findEnd_found {cursor : Cursor} {post : Option Cursor → Buffer → Prop}
    (sized : cursor.bufsz = buffer.size) (started : cursor.i < cursor.datsz)
    (enough : buffer.size + 1 < rounds)
    (inReach : (findEnd rounds cursor).Always Answers EndInReach post buffer) :
    (findEnd rounds cursor).Always Answers Uncut (fun result after => ∀ next, result = some next →
      next.bufsz = after.size ∧ after.reach ≤ buffer.reach) buffer := by
  cases rounds with
  | zero => omega
  | succ rounds =>
      rw [findEnd] at inReach ⊢
      have between : buffer.EndBetween cursor.i cursor.datsz := inReach.1 started
      apply Program.Always.call nofun
      intro _ after answers
      cases answers
      apply Program.Always.bind
      apply (seekEnd_ends _ _ (by omega) (by omega)).mono
      rintro ⟨found, i⟩ _ ⟨rfl, isFound, _⟩
      apply Program.Always.bind
      apply (getMoreIf_ends _ { cursor with i } sized).mono
      rintro (_ | next) filled more
      · exact nofun
      · have refilled := more next rfl
        dsimp only
        rw [if_pos (isFound between)]
        intro final isFinal
        cases isFinal
        exact ⟨refilled.sized, refilled.reach⟩

/-- After a round that has nothing left, the next one finds the end. -/
theorem findEnd_ends {cursor : Cursor} {post : Option Cursor → Buffer → Prop}
    (sized : cursor.bufsz = buffer.size) (enough : buffer.reach + 2 < rounds)
    (inReach : (findEnd rounds cursor).Always Answers EndInReach post buffer) :
    (findEnd rounds cursor).Always Answers Uncut (fun result after => ∀ next, result = some next →
      next.bufsz = after.size ∧ after.reach ≤ buffer.reach) buffer := by
  have small : buffer.size ≤ buffer.reach := Nat.le_add_right _ _
  by_cases started : cursor.i < cursor.datsz
  · exact findEnd_found sized started (by omega) inReach
  · cases rounds with
    | zero => omega
    | succ rounds =>
        rw [findEnd] at inReach ⊢
        apply Program.Always.call nofun
        intro _ after answers
        have later := inReach.2 _ after answers
        cases answers
        apply Program.Always.exchange (seekEnd_ends _ _ (by omega) (by omega)) later
        rintro ⟨found, i⟩ _ ⟨rfl, _, nothingLeft⟩ later
        cases nothingLeft (Nat.le_of_not_lt started)
        have needed : decide (cursor.i ≥ cursor.datsz) = true :=
          decide_eq_true (Nat.le_of_not_lt started)
        apply Program.Always.exchange (getMoreIf_ends _ { cursor with i := cursor.i } sized) later
        rintro (_ | next) filled more later
        · exact nofun
        · have refilled := more next rfl
          have smaller : filled.size ≤ filled.reach := Nat.le_add_right _ _
          have reach := refilled.reach
          apply (findEnd_found refilled.sized (refilled.more needed) (by omega) later).mono
          intro result final found final' isFinal
          rcases found final' isFinal with ⟨stillSized, further⟩
          exact ⟨stillSized, further.trans reach⟩

theorem loadShort_ends (index : Nat) :
    (loadShort index).Always Answers Uncut (fun _ after => after = buffer) buffer := by
  apply Program.Always.call nofun
  intro high after answers
  rcases answers.load with ⟨_, _, rfl⟩
  apply Program.Always.call nofun
  intro low after answers
  rcases answers.load with ⟨_, _, rfl⟩
  exact rfl

theorem loadLong_ends (index : Nat) :
    (loadLong index).Always Answers Uncut (fun _ after => after = buffer) buffer := by
  apply Program.Always.bind
  apply (loadShort_ends _).mono
  rintro high _ rfl
  apply Program.Always.bind
  apply (loadShort_ends _).mono
  rintro low _ rfl
  exact rfl

theorem ippHeader_ends (jobid : Int) (cursor : Cursor) :
    (ippHeader jobid cursor).Always Answers Uncut (fun _ _ => True) buffer := by
  apply Program.Always.bind
  apply (loadShort_ends _).mono
  rintro status _ rfl
  apply Program.Always.bind
  apply (loadLong_ends _).mono
  rintro requestId _ rfl
  trivial

theorem ippResponse_ends {cursor : Cursor} {jobid len : Int} {post : Bool → Buffer → Prop}
    (sized : cursor.bufsz = buffer.size) (enough : buffer.reach + 2 < rounds)
    (inReach : (ippResponse rounds jobid len cursor).Always Answers EndInReach post buffer) :
    (ippResponse rounds jobid len cursor).Always Answers Uncut (fun _ _ => True) buffer := by
  rw [ippResponse] at inReach ⊢
  apply Program.Always.exchange (getMoreIf_ends _ _ sized) inReach
  rintro (_ | more) filled isMore inReach
  · trivial
  · have refilled := isMore more rfl
    have further := refilled.reach
    apply Program.Always.bind
    apply (findEnd_ends refilled.sized (by omega) inReach.front).mono
    rintro (_ | ended) behind isEnded
    · trivial
    · apply Program.Always.bind
      apply (getMoreIf_ends _ _ (isEnded ended rfl).1).mono
      rintro (_ | last) final isLast
      · trivial
      · exact ippHeader_ends jobid last

theorem ippStatus_ends {cursor : Cursor} {jobid : Int} {post : Bool → Buffer → Prop}
    (sized : cursor.bufsz = buffer.size) (inside : cursor.i ≤ buffer.size)
    (enough : buffer.reach + 2 < rounds)
    (inReach : (ippStatus rounds jobid cursor).Always Answers EndInReach post buffer) :
    (ippStatus rounds jobid cursor).Always Answers Uncut (fun _ _ => True) buffer := by
  rw [ippStatus] at inReach ⊢
  apply Program.Always.exchange (findContentLength_ends sized inside (by omega)) inReach
  rintro (_ | ⟨next, len⟩) after found inReach
  · trivial
  · rcases found next len rfl with ⟨sizedNext, reach⟩
    exact ippResponse_ends sizedNext (by omega) inReach

theorem readResponse_ends {jobid : Int} {nr : Nat} {again : Reader Bool}
    {post : Bool → Buffer → Prop} (sized : buffer.size = IOBUFSZ) (enough : buffer.reach + 2 < rounds)
    (later : ∀ after, after.reach = buffer.reach → after.size = buffer.size →
      again.Always Answers EndInReach post after →
      again.Always Answers Uncut (fun _ _ => True) after)
    (inReach : (readResponse rounds jobid nr again).Always Answers EndInReach post buffer) :
    (readResponse rounds jobid nr again).Always Answers Uncut (fun _ _ => True) buffer := by
  have small : buffer.size ≤ buffer.reach := Nat.le_add_right _ _
  rw [readResponse] at inReach ⊢
  apply Program.Always.call nofun
  intro _ filled answers
  have onward := inReach.after_call answers
  rcases answers.counts with rfl
  apply Program.Always.exchange (skipWhile_ends _ (by omega) (by omega)) onward
  rintro statcode filled ⟨rfl, low, inside⟩ inReach
  apply Program.Always.exchange (skipWhile_ends _ (by omega) (by omega)) inReach
  rintro cp filled ⟨rfl, _, insideToo⟩ inReach
  split at inReach
  · rw [if_pos ‹_›]
    apply Program.Always.exchange (readString_ends (by omega) (by omega)) inReach
    rintro _ _ rfl inReach
    exact later _ rfl rfl inReach
  · rw [if_neg ‹_›]
    apply Program.Always.call nofun
    intro _ cut answers
    have onward := inReach.after_call answers
    rcases answers.store with ⟨_, rfl⟩
    have sizeCut : (filled.put cp 0).size = filled.size := rfl
    apply Program.Always.exchange (skipWhile_ends _ (by omega) (by omega)) onward
    rintro lineEnd _ ⟨rfl, _, insideLine⟩ inReach
    apply Program.Always.call nofun
    intro _ ended answers
    have onward := inReach.after_call answers
    rcases answers.store with ⟨_, rfl⟩
    have sizeEnded : ((filled.put cp 0).put lineEnd 0).size = filled.size := rfl
    have reachEnded : ((filled.put cp 0).put lineEnd 0).reach = filled.reach := rfl
    apply Program.Always.exchange (readString_ends (by omega) (by omega)) onward
    rintro code _ rfl inReach
    split at inReach
    · rw [if_pos ‹_›]
      exact later _ rfl rfl inReach
    · rw [if_neg ‹_›]
      split at inReach
      · rw [if_pos ‹_›]
        exact ippStatus_ends sized.symm (Nat.le_of_lt insideLine) (by omega) inReach
      · rw [if_neg ‹_›]
        apply Program.Always.call nofun
        intro _ marked answers
        rcases answers.store with ⟨_, rfl⟩
        apply Program.Always.bind
        apply (readString_ends (by omega) (by rw [Buffer.put_size]; omega)).mono
        rintro reason _ rfl
        trivial

theorem printerStatus_ends {jobid : Int} {post : Bool → Buffer → Prop}
    (enough : buffer.reach + 3 < rounds) (sized : buffer.size = IOBUFSZ)
    (inReach : (printerStatus rounds jobid).Always Answers EndInReach post buffer) :
    (printerStatus rounds jobid).Always Answers Uncut (fun _ _ => True) buffer := by
  induction rounds generalizing buffer with
  | zero => omega
  | succ rounds hypothesis =>
      rw [printerStatus] at inReach ⊢
      apply Program.Always.call nofun
      rintro (_ | nr) filled answers
      · trivial
      · have onward := inReach.after_call answers
        rcases answers.tread with ⟨sameSize, received⟩
        rcases received nr rfl with ⟨positive, fewer⟩
        have less : filled.reach + 1 ≤ buffer.reach := by
          have atLeast : filled.coming + 1 ≤ buffer.coming := by omega
          have product := Nat.mul_le_mul_left IOBUFSZ atLeast
          rw [Nat.mul_add, IOBUFSZ] at product
          rw [Buffer.reach, Buffer.reach, sameSize, IOBUFSZ]
          omega
        apply readResponse_ends (sameSize.trans sized) (by omega) _ onward
        intro after sameReach isSize later
        exact hypothesis (by omega) (isSize.trans (sameSize.trans sized)) later

end Ends

/-! ## Where the search finds nothing -/

def IsMark : Access → Prop
  | .lookForEnd _ _ => True
  | _ => False

section Marks

variable {rounds : Nat}

theorem avoids_perform {access : Access} (notMark : ¬ IsMark access) :
    (Program.perform access : Reader (AccessResponse access)).Avoids IsMark :=
  ⟨notMark, fun _ => trivial⟩

theorem load_avoids (index : Nat) : (Reader.load index).Avoids IsMark :=
  avoids_perform id

theorem store_avoids (index : Nat) (byte : Byte) : (Reader.store index byte).Avoids IsMark :=
  avoids_perform id

theorem tread_avoids (offset count : Nat) : (Reader.tread offset count).Avoids IsMark :=
  avoids_perform id

theorem realloc_avoids (size : Nat) : (Reader.realloc size).Avoids IsMark :=
  avoids_perform id

theorem counts_avoids (i : Option Nat) (datsz bufsz : Nat) :
    (Reader.counts i datsz bufsz).Avoids IsMark :=
  avoids_perform id

theorem outOfRounds_avoids {Result : Type} : (Reader.outOfRounds : Reader Result).Avoids IsMark :=
  ⟨id, fun never => nomatch (never : Empty)⟩

theorem skipWhile_avoids (test : Byte → Bool) (cp : Nat) :
    (skipWhile test rounds cp).Avoids IsMark := by
  induction rounds generalizing cp with
  | zero => exact outOfRounds_avoids
  | succ rounds hypothesis =>
      apply (load_avoids cp).bind
      intro byte
      split
      · exact hypothesis _
      · trivial

theorem readString_avoids (cp : Nat) : (readString rounds cp).Avoids IsMark := by
  induction rounds generalizing cp with
  | zero => exact outOfRounds_avoids
  | succ rounds hypothesis =>
      apply (load_avoids cp).bind
      intro byte
      split
      · trivial
      · exact (hypothesis _).bind fun _ => trivial

theorem strncasecmp_avoids (cp : Nat) (expected : Bytes) :
    (strncasecmp cp expected).Avoids IsMark := by
  induction expected generalizing cp with
  | nil => trivial
  | cons other expected hypothesis =>
      apply (load_avoids cp).bind
      intro byte
      split
      · exact hypothesis _
      · trivial

theorem seekC_avoids (datsz bufsz i : Nat) : (seekC datsz bufsz rounds i).Avoids IsMark := by
  induction rounds generalizing i with
  | zero => exact outOfRounds_avoids
  | succ rounds hypothesis =>
      apply (counts_avoids _ _ _).bind
      intro _
      apply (load_avoids i).bind
      intro byte
      split
      · exact hypothesis _
      · trivial

theorem readmore_avoids (off bsz : Nat) : (readmore off bsz).Avoids IsMark := by
  have read : ∀ bsz, (treadMore off bsz).Avoids IsMark := by
    intro bsz
    apply (tread_avoids _ _).bind
    rintro (_ | nr) <;> trivial
  rw [readmore]
  split
  · exact (realloc_avoids _).bind fun _ => read _
  · exact read _

theorem getMoreIf_avoids (needed : Bool) (cursor : Cursor) :
    (getMoreIf needed cursor).Avoids IsMark := by
  rw [getMoreIf]
  split
  · apply (readmore_avoids _ _).bind
    rintro ⟨_ | nr, bufsz⟩
    · trivial
    · exact (counts_avoids _ _ _).bind fun _ => trivial
  · trivial

theorem findContentLength_avoids (cursor : Cursor) :
    (findContentLength rounds cursor).Avoids IsMark := by
  induction rounds generalizing cursor with
  | zero => exact outOfRounds_avoids
  | succ rounds hypothesis =>
      apply (seekC_avoids _ _ _).bind
      intro i
      apply (getMoreIf_avoids _ _).bind
      rintro (_ | next)
      · trivial
      · apply (strncasecmp_avoids _ _).bind
        intro same
        split
        · apply (skipWhile_avoids _ _).bind
          intro contentlen
          apply (skipWhile_avoids _ _).bind
          intro cp
          apply (store_avoids _ _).bind
          intro _
          apply (counts_avoids _ _ _).bind
          intro _
          exact (readString_avoids _).bind fun _ => trivial
        · exact hypothesis _

theorem seekEnd_avoids (datsz bufsz i : Nat) : (seekEnd datsz bufsz rounds i).Avoids IsMark := by
  induction rounds generalizing i with
  | zero => exact outOfRounds_avoids
  | succ rounds hypothesis =>
      have again := hypothesis (i + 1)
      apply (counts_avoids _ _ _).bind
      intro _
      split
      · apply (load_avoids _).bind
        intro first
        split
        · apply (load_avoids _).bind
          intro second
          split
          · apply (load_avoids _).bind
            intro third
            split
            · exact (counts_avoids _ _ _).bind fun _ => trivial
            · exact again
          · exact again
        · exact again
      · trivial

theorem loadShort_avoids (index : Nat) : (loadShort index).Avoids IsMark :=
  (load_avoids _).bind fun _ => (load_avoids _).bind fun _ => trivial

theorem loadLong_avoids (index : Nat) : (loadLong index).Avoids IsMark :=
  (loadShort_avoids _).bind fun _ => (loadShort_avoids _).bind fun _ => trivial

theorem ippHeader_avoids (jobid : Int) (cursor : Cursor) : (ippHeader jobid cursor).Avoids IsMark :=
  (loadShort_avoids _).bind fun _ => (loadLong_avoids _).bind fun _ => trivial

end Marks

section Stuck

variable {buffer : Buffer} {rounds : Nat} {post : Bool → Buffer → Prop}

theorem endInReach_of_not_mark (access : Access) (buffer : Buffer) (notMark : ¬ IsMark access) :
    EndInReach access buffer := by
  cases access with
  | lookForEnd i datsz => exact absurd trivial notMark
  | _ => trivial

/-- A front without a mark. -/
theorem inReach_behind {Next Result : Type} {front : Reader Next} {rest : Next → Reader Result}
    {post : Result → Buffer → Prop} (avoids : front.Avoids IsMark)
    (whole : (front >>= rest).Always Answers Uncut post buffer)
    (later : ∀ result after, (rest result).Always Answers Uncut post after →
      (rest result).Always Answers EndInReach (fun _ _ => True) after) :
    (front >>= rest).Always Answers EndInReach (fun _ _ => True) buffer :=
  (Program.Always.of_avoids avoids endInReach_of_not_mark buffer).exchange whole
    fun result after _ => later result after

theorem Answers.of_load {index : Nat} (inside : index < buffer.size) :
    Answers (.load index) buffer (buffer.memory index) buffer :=
  if_pos inside

/-- A round that finds nothing leaves `i` below `datsz`. -/
theorem seekEnd_stuck {datsz bufsz i : Nat} {post : Bool × Nat → Buffer → Prop}
    (started : i < datsz) (nothing : ¬ buffer.EndBetween i datsz)
    (uncut : (seekEnd datsz bufsz rounds i).Always Answers Uncut post buffer) :
    ∃ i', i ≤ i' ∧ i' < datsz ∧
      (seekEnd datsz bufsz rounds i).Runs Answers buffer (false, i') buffer := by
  induction rounds generalizing i with
  | zero => exact absurd rfl uncut.1
  | succ rounds hypothesis =>
      rw [seekEnd] at uncut ⊢
      have marked : Answers (.counts (some i) datsz bufsz) buffer () buffer := rfl
      have onward := uncut.after_call marked
      by_cases more : i + 2 < datsz
      · have goesOn : ¬ buffer.SearchStops i := fun stops => nothing ⟨i, le_refl i, more, stops⟩
        have nothingLater : ¬ buffer.EndBetween (i + 1) datsz := by
          rintro ⟨index, low, high, stops⟩
          exact nothing ⟨index, by omega, high, stops⟩
        have again : ∀ (uncut : (seekEnd datsz bufsz rounds (i + 1)).Always Answers Uncut post
            buffer), ∃ i', i ≤ i' ∧ i' < datsz ∧
              (seekEnd datsz bufsz rounds (i + 1)).Runs Answers buffer (false, i') buffer := by
          intro uncut
          rcases hypothesis (by omega) nothingLater uncut with ⟨i', low, high, run⟩
          exact ⟨i', by omega, high, run⟩
        have inside : i < buffer.size := Nat.lt_of_not_le fun outside => goesOn (Or.inl outside)
        rw [if_pos more] at onward
        have first := onward.after_call (Answers.of_load inside)
        by_cases isFirst : buffer.memory i = LF
        · have insideToo : i + 1 < buffer.size :=
            Nat.lt_of_not_le fun outside => goesOn (Or.inr ⟨isFirst, Or.inl outside⟩)
          rw [if_pos isFirst] at first
          have second := first.after_call (Answers.of_load insideToo)
          by_cases isSecond : buffer.memory (i + 1) = CR
          · have insideThree : i + 2 < buffer.size := Nat.lt_of_not_le fun outside =>
              goesOn (Or.inr ⟨isFirst, Or.inr ⟨isSecond, Or.inl outside⟩⟩)
            have notThird : buffer.memory (i + 2) ≠ LF := fun isThird =>
              goesOn (Or.inr ⟨isFirst, Or.inr ⟨isSecond, Or.inr isThird⟩⟩)
            rw [if_pos isSecond] at second
            have third := second.after_call (Answers.of_load insideThree)
            rw [if_neg notThird] at third
            rcases again third with ⟨i', low, high, run⟩
            refine ⟨i', low, high, .perform_bind marked ?_⟩
            rw [if_pos more]
            refine .perform_bind (Answers.of_load inside) ?_
            rw [if_pos isFirst]
            refine .perform_bind (Answers.of_load insideToo) ?_
            rw [if_pos isSecond]
            refine .perform_bind (Answers.of_load insideThree) ?_
            rw [if_neg notThird]
            exact run
          · rw [if_neg isSecond] at second
            rcases again second with ⟨i', low, high, run⟩
            refine ⟨i', low, high, .perform_bind marked ?_⟩
            rw [if_pos more]
            refine .perform_bind (Answers.of_load inside) ?_
            rw [if_pos isFirst]
            refine .perform_bind (Answers.of_load insideToo) ?_
            rw [if_neg isSecond]
            exact run
        · rw [if_neg isFirst] at first
          rcases again first with ⟨i', low, high, run⟩
          refine ⟨i', low, high, .perform_bind marked ?_⟩
          rw [if_pos more]
          refine .perform_bind (Answers.of_load inside) ?_
          rw [if_neg isFirst]
          exact run
      · refine ⟨i, le_refl i, started, .perform_bind marked ?_⟩
        rw [if_neg more]
        exact .done _ _

theorem findEnd_stuck {cursor : Cursor} {post : Option Cursor → Buffer → Prop}
    (started : cursor.i < cursor.datsz) (nothing : ¬ buffer.EndBetween cursor.i cursor.datsz) :
    ¬ (findEnd rounds cursor).Always Answers Uncut post buffer := by
  induction rounds generalizing cursor with
  | zero => exact fun uncut => uncut.1 rfl
  | succ rounds hypothesis =>
      intro uncut
      rw [findEnd] at uncut
      have onward := uncut.after_call (rfl : Answers (.lookForEnd _ _) buffer () buffer)
      rcases seekEnd_stuck started nothing onward.front with ⟨i', low, high, run⟩
      have later := onward.behind run
      have notNeeded : decide (i' ≥ cursor.datsz) = false := decide_eq_false (by omega)
      dsimp only at later
      rw [notNeeded, getMoreIf, if_neg Bool.false_ne_true] at later
      have again : (findEnd rounds { cursor with i := i' }).Always Answers Uncut post buffer := later
      apply @hypothesis { cursor with i := i' } high _ again
      rintro ⟨index, above, below, stops⟩
      exact nothing ⟨index, low.trans above, below, stops⟩

theorem findEnd_inReach {cursor : Cursor} {post : Option Cursor → Buffer → Prop}
    (uncut : (findEnd rounds cursor).Always Answers Uncut post buffer) :
    (findEnd rounds cursor).Always Answers EndInReach (fun _ _ => True) buffer := by
  induction rounds generalizing cursor buffer with
  | zero => exact absurd rfl uncut.1
  | succ rounds hypothesis =>
      have here : EndInReach (.lookForEnd cursor.i cursor.datsz) buffer := by
        intro started
        by_contra nothing
        exact findEnd_stuck started nothing uncut
      rw [findEnd] at uncut ⊢
      apply Program.Always.call here
      intro _ after answers
      apply inReach_behind (seekEnd_avoids _ _ _) (uncut.after_call answers)
      rintro ⟨found, i⟩ searched later
      apply inReach_behind (getMoreIf_avoids _ _) later
      rintro (_ | next) filled later
      · trivial
      · dsimp only at later ⊢
        split at later
        · rw [if_pos ‹_›]
          trivial
        · rw [if_neg ‹_›]
          exact hypothesis later

theorem ippResponse_inReach {jobid len : Int} {cursor : Cursor}
    (uncut : (ippResponse rounds jobid len cursor).Always Answers Uncut post buffer) :
    (ippResponse rounds jobid len cursor).Always Answers EndInReach (fun _ _ => True) buffer := by
  rw [ippResponse] at uncut ⊢
  apply inReach_behind (getMoreIf_avoids _ _) uncut
  rintro (_ | more) filled uncut
  · trivial
  · apply (findEnd_inReach uncut.front).exchange uncut
    rintro (_ | ended) behind _ uncut
    · trivial
    · apply inReach_behind (getMoreIf_avoids _ _) uncut
      rintro (_ | last) final _
      · trivial
      · exact Program.Always.of_avoids (ippHeader_avoids jobid last) endInReach_of_not_mark final

theorem ippStatus_inReach {jobid : Int} {cursor : Cursor}
    (uncut : (ippStatus rounds jobid cursor).Always Answers Uncut post buffer) :
    (ippStatus rounds jobid cursor).Always Answers EndInReach (fun _ _ => True) buffer := by
  rw [ippStatus] at uncut ⊢
  apply inReach_behind (findContentLength_avoids _) uncut
  rintro (_ | ⟨next, len⟩) after uncut
  · trivial
  · exact ippResponse_inReach uncut

theorem readResponse_inReach {jobid : Int} {nr : Nat} {again : Reader Bool}
    (later : ∀ after, again.Always Answers Uncut post after →
      again.Always Answers EndInReach (fun _ _ => True) after)
    (uncut : (readResponse rounds jobid nr again).Always Answers Uncut post buffer) :
    (readResponse rounds jobid nr again).Always Answers EndInReach (fun _ _ => True) buffer := by
  rw [readResponse] at uncut ⊢
  apply inReach_behind (counts_avoids _ _ _) uncut
  intro _ _ uncut
  apply inReach_behind (skipWhile_avoids _ _) uncut
  intro statcode _ uncut
  apply inReach_behind (skipWhile_avoids _ _) uncut
  intro cp _ uncut
  split at uncut
  · rw [if_pos ‹_›]
    apply inReach_behind (readString_avoids _) uncut
    intro _ after uncut
    exact later after uncut
  · rw [if_neg ‹_›]
    apply inReach_behind (store_avoids _ _) uncut
    intro _ _ uncut
    apply inReach_behind (skipWhile_avoids _ _) uncut
    intro lineEnd _ uncut
    apply inReach_behind (store_avoids _ _) uncut
    intro _ _ uncut
    apply inReach_behind (readString_avoids _) uncut
    intro code after uncut
    split at uncut
    · rw [if_pos ‹_›]
      exact later after uncut
    · rw [if_neg ‹_›]
      split at uncut
      · rw [if_pos ‹_›]
        exact ippStatus_inReach uncut
      · rw [if_neg ‹_›]
        apply inReach_behind (store_avoids _ _) uncut
        intro _ _ uncut
        apply inReach_behind (readString_avoids _) uncut
        intro _ _ _
        trivial

theorem printerStatus_inReach {jobid : Int}
    (uncut : (printerStatus rounds jobid).Always Answers Uncut post buffer) :
    (printerStatus rounds jobid).Always Answers EndInReach (fun _ _ => True) buffer := by
  induction rounds generalizing buffer with
  | zero => exact absurd rfl uncut.1
  | succ rounds hypothesis =>
      rw [printerStatus] at uncut ⊢
      apply inReach_behind (tread_avoids _ _) uncut
      rintro (_ | nr) filled uncut
      · trivial
      · exact readResponse_inReach (fun after => hypothesis) uncut

end Stuck

/-- Some number of rounds is enough. An access outside the buffer ends the run, as what
the program does from there on is undefined. -/
def Terminates (jobid : Int) (memory : Nat → Byte) (pieces : List Bytes) : Prop :=
  ∃ rounds, (printerStatus rounds jobid).Always Answers Uncut (fun _ _ => True)
    (.initial memory pieces)

theorem Terminates.inReach {jobid : Int} {memory : Nat → Byte} {pieces : List Bytes}
    (terminates : Terminates jobid memory pieces) (rounds : Nat) :
    (printerStatus rounds jobid).Always Answers EndInReach (fun _ _ => True)
      (.initial memory pieces) := by
  rcases terminates with ⟨enough, uncut⟩
  have both := uncut.and (printerStatus_inReach uncut)
  have longer := both.of_uncut (printerStatus_cutOff (Nat.le_max_left enough rounds) jobid)
    fun _ _ allowed => allowed.1
  have inReach := longer.mono_allowed fun _ _ allowed => allowed.2
  have shorter := inReach.of_cutOff (printerStatus_cutOff (Nat.le_max_right enough rounds) jobid)
  apply (shorter ?_ ?_).mono
  · exact fun _ _ _ => trivial
  · rintro _ buffer rfl
    trivial
  · rintro _ buffer response after rfl
    exact nomatch (response : Empty)

/-- It ends if and only if the search for the end of the header never takes a round in
vain. -/
theorem printerStatus_terminates_iff (jobid : Int) (memory : Nat → Byte) (pieces : List Bytes) :
    Terminates jobid memory pieces ↔
      ∀ rounds, (printerStatus rounds jobid).Always Answers EndInReach (fun _ _ => True)
        (.initial memory pieces) := by
  constructor
  · exact Terminates.inReach
  · intro inReach
    exact ⟨_, printerStatus_ends (Nat.lt_succ_self _) rfl (inReach _)⟩

/-- A response that is cut behind the Content-Length, and then the end of file. -/
theorem cutHeader_not_terminates :
    ¬ ∀ jobid memory pieces, Terminates jobid memory pieces := by
  intro always
  have inReach := (always 1 (fun _ => 0)
    [text "HTTP/1.1 200 OK\r\nContent-Length: 8\r\n"]).inReach 45
  revert inReach
  decide +kernel

end Apue.Printer.Status
