import Mathlib.Data.List.FinRange
import Mathlib.Data.Set.Finite.Basic
import Mathlib.Order.Interval.Finset.Nat

/-! # Merging sorted ranges

`merge` of `threads/barrier.c` puts the sorted portions of `nums` together. It is undefined
(`none`) where it reads outside `nums`, or `minidx` before it is set.
-/

namespace Apue.Threads.Merging

def Long : Type := { value : Int // -2 ^ 63 ≤ value ∧ value ≤ 2 ^ 63 - 1 }

instance : LinearOrder Long := @Subtype.instLinearOrder Int Int.instLinearOrder _

def LONG_MAX : Long := ⟨2 ^ 63 - 1, by decide⟩

theorem Long.le_max (value : Long) : value ≤ LONG_MAX := value.property.2

/-- Elements 0 to `sidx - 1` of `snums` are kept as a list. `taken` is a history: the positions
of `nums` from which they were taken. -/
structure Progress (NTHR : Nat) where
  idx : Fin NTHR → Nat
  minidx : Option (Fin NTHR)
  snums : List Long
  taken : List Nat

variable {NTHR TNUM : Nat}

/-- The body of the inner loop, which changes `num` and `minidx`. -/
def choose (nums : List Long) (TNUM : Nat) (idx : Fin NTHR → Nat)
    (chosen : Long × Option (Fin NTHR)) (i : Fin NTHR) : Option (Long × Option (Fin NTHR)) :=
  if idx i < (i + 1) * TNUM then do
    let value ← nums[idx i]?
    if value < chosen.1 then return (value, some i)
    return chosen
  else return chosen

/-- What a round does with the portion it has chosen. -/
def Progress.take (progress : Progress NTHR) (minidx : Fin NTHR) (value : Long) : Progress NTHR where
  idx := Function.update progress.idx minidx (progress.idx minidx + 1)
  minidx := some minidx
  snums := progress.snums ++ [value]
  taken := progress.taken ++ [progress.idx minidx]

def mergeRound (nums : List Long) (TNUM : Nat) (progress : Progress NTHR) :
    Option (Progress NTHR) := do
  let chosen ← (List.finRange NTHR).foldlM (choose nums TNUM progress.idx) (LONG_MAX, progress.minidx)
  let minidx ← chosen.2
  let value ← nums[progress.idx minidx]?
  return progress.take minidx value

def mergeRounds (nums : List Long) (TNUM : Nat) : Nat → Progress NTHR → Option (Progress NTHR)
  | 0, progress => some progress
  | rounds + 1, progress => do
      let next ← mergeRound nums TNUM progress
      mergeRounds nums TNUM rounds next

def Progress.initial (NTHR TNUM : Nat) : Progress NTHR := ⟨fun i => i * TNUM, none, [], []⟩

def merge (nums : List Long) (NTHR TNUM : Nat) : Option (Progress NTHR) :=
  mergeRounds nums TNUM (NTHR * TNUM) (.initial NTHR TNUM)

/-- The contents of `nums` when `heapsort` has sorted each portion of it. -/
structure Portions (NTHR TNUM : Nat) where
  nums : List Long
  full : nums.length = NTHR * TNUM
  someThread : 0 < NTHR
  someElement : 0 < TNUM
  sorted : ∀ i < NTHR, ∀ p q, i * TNUM ≤ p → p ≤ q → q < (i + 1) * TNUM →
    nums.getD p LONG_MAX ≤ nums.getD q LONG_MAX

def Portions.element (portions : Portions NTHR TNUM) (p : Nat) : Long :=
  portions.nums.getD p LONG_MAX

/-- Every element is taken once, and they are in order. -/
def Portions.Merges (portions : Portions NTHR TNUM) : Prop :=
  ∃ final, merge portions.nums NTHR TNUM = some final ∧
    final.taken.Perm (List.range (NTHR * TNUM)) ∧
    final.snums.Perm portions.nums ∧ final.snums.Pairwise (· ≤ ·)

/-- The order in which the positions are taken. -/
def Portions.Before (portions : Portions NTHR TNUM) (p q : Nat) : Prop :=
  portions.element p < portions.element q ∨ portions.element p = portions.element q ∧ p < q

/-- The last position of the greatest element below the maximum. -/
structure Portions.LastBelow (portions : Portions NTHR TNUM) (last : Nat) : Prop where
  inside : last < NTHR * TNUM
  below : portions.element last < LONG_MAX
  greatest : ∀ p < NTHR * TNUM, portions.element p < LONG_MAX → p = last ∨ portions.Before p last

/-- The elements that are equal to the maximum come right behind the last one below it. -/
def Portions.MaximaFollow (portions : Portions NTHR TNUM) : Prop :=
  ∃ last, portions.LastBelow last ∧ ∀ p < NTHR * TNUM, portions.element p = LONG_MAX →
    last < p ∧ ∀ q, last < q → q ≤ p → portions.element q = LONG_MAX

/-! ## The inner loop -/

section Inner

variable (portions : Portions NTHR TNUM) {idx : Fin NTHR → Nat}

theorem Portions.getElem?_eq {p : Nat} (inside : p < NTHR * TNUM) :
    portions.nums[p]? = some (portions.element p) := by
  have bound : p < portions.nums.length := by
    rw [portions.full]
    exact inside
  rw [Portions.element, List.getD_eq_getElem?_getD, List.getElem?_eq_getElem bound, Option.getD_some]

theorem portion_inside (i : Fin NTHR) {p : Nat} (inside : p < (i + 1) * TNUM) : p < NTHR * TNUM :=
  inside.trans_le (Nat.mul_le_mul_right TNUM i.isLt)

/-- What the loop has chosen among the portions that it has seen. -/
inductive Chosen (portions : Portions NTHR TNUM) (idx : Fin NTHR → Nat) (minidx : Option (Fin NTHR))
    (seen : List (Fin NTHR)) : Long × Option (Fin NTHR) → Prop
  | nothing (maxima : ∀ i ∈ seen, idx i < (i + 1) * TNUM → portions.element (idx i) = LONG_MAX) :
      Chosen portions idx minidx seen (LONG_MAX, minidx)
  | first (m : Fin NTHR) (member : m ∈ seen) (active : idx m < (m + 1) * TNUM)
      (below : portions.element (idx m) < LONG_MAX)
      (least : ∀ i ∈ seen, idx i < (i + 1) * TNUM → i = m ∨ portions.Before (idx m) (idx i)) :
      Chosen portions idx minidx seen (portions.element (idx m), some m)

theorem choose_chosen (low : ∀ i : Fin NTHR, i * TNUM ≤ idx i) (minidx : Option (Fin NTHR))
    (seen : List (Fin NTHR)) (ascending : seen.Pairwise (· < ·)) :
    ∃ chosen, seen.foldlM (choose portions.nums TNUM idx) (LONG_MAX, minidx) = some chosen ∧
      Chosen portions idx minidx seen chosen := by
  induction seen using List.reverseRecOn with
  | nil => exact ⟨_, rfl, .nothing fun _ member => nomatch member⟩
  | append_singleton seen i hypothesis =>
      rw [List.pairwise_append] at ascending
      rcases hypothesis ascending.1 with ⟨chosen, ran, isChosen⟩
      have later : ∀ m ∈ seen, m < i := fun m member =>
        ascending.2.2 m member i (List.mem_singleton_self i)
      rw [List.foldlM_append, ran, Option.bind_eq_bind, Option.bind_some, List.foldlM_cons, choose]
      by_cases active : idx i < (i + 1) * TNUM
      · rw [if_pos active, portions.getElem?_eq (portion_inside i active)]
        simp only [Option.bind_eq_bind, Option.bind_some]
        by_cases smaller : portions.element (idx i) < chosen.1
        · rw [if_pos smaller]
          refine ⟨_, rfl, .first i (List.mem_append_right _ (List.mem_singleton_self i)) active
            (smaller.trans_le (Long.le_max _)) ?_⟩
          intro j member activeThere
          rcases List.mem_append.mp member with inSeen | isLast
          · right
            left
            cases isChosen with
            | nothing maxima =>
                rw [maxima j inSeen activeThere]
                exact smaller
            | first m _ _ _ least =>
                rcases least j inSeen activeThere with rfl | less | equal
                · exact smaller
                · exact lt_trans smaller less
                · rw [← equal.1]
                  exact smaller
          · left
            exact List.mem_singleton.mp isLast
        · rw [if_neg smaller]
          refine ⟨_, rfl, ?_⟩
          cases isChosen with
          | nothing maxima =>
              apply Chosen.nothing
              intro j member activeThere
              rcases List.mem_append.mp member with inSeen | isLast
              · exact maxima j inSeen activeThere
              · rw [List.mem_singleton.mp isLast]
                exact le_antisymm (Long.le_max _) (not_lt.mp smaller)
          | first m inside activeFirst below least =>
              apply Chosen.first m (List.mem_append_left _ inside) activeFirst below
              intro j member activeThere
              rcases List.mem_append.mp member with inSeen | isLast
              · exact least j inSeen activeThere
              · right
                rw [List.mem_singleton.mp isLast]
                -- Among equal elements the one in the earlier portion stays chosen.
                have earlier : idx m < idx i := by
                  have ordered : (m + 1) * TNUM ≤ i * TNUM :=
                    Nat.mul_le_mul_right TNUM (later m inside)
                  have lowest := low i
                  omega
                rcases lt_or_eq_of_le (not_lt.mp smaller) with less | equal
                · exact Or.inl less
                · exact Or.inr ⟨equal, earlier⟩
      · rw [if_neg active]
        refine ⟨_, rfl, ?_⟩
        have stillSeen : ∀ j ∈ seen ++ [i], idx j < (j + 1) * TNUM → j ∈ seen := by
          intro j member activeThere
          rcases List.mem_append.mp member with inSeen | isLast
          · exact inSeen
          · rw [List.mem_singleton.mp isLast] at activeThere
            exact absurd activeThere active
        cases isChosen with
        | nothing maxima =>
            apply Chosen.nothing
            intro j member activeThere
            exact maxima j (stillSeen j member activeThere) activeThere
        | first m inside activeFirst below least =>
            apply Chosen.first m (List.mem_append_left _ inside) activeFirst below
            intro j member activeThere
            exact least j (stillSeen j member activeThere) activeThere

end Inner

/-! ## One round -/

section Rounds

variable {portions : Portions NTHR TNUM} {progress : Progress NTHR}

/-- The positions that are still to be taken. -/
def Progress.Remaining (progress : Progress NTHR) (TNUM : Nat) (p : Nat) : Prop :=
  ∃ i, progress.idx i ≤ p ∧ p < (i + 1) * TNUM

/-- As long as only elements below the maximum have been taken, they were taken in order. -/
structure Advanced (portions : Portions NTHR TNUM) (progress : Progress NTHR) : Prop where
  low : ∀ i : Fin NTHR, i * TNUM ≤ progress.idx i
  taken : ∀ p, p ∈ progress.taken ↔ ∃ i : Fin NTHR, i * TNUM ≤ p ∧ p < progress.idx i
  inside : ∀ p ∈ progress.taken, p < NTHR * TNUM
  values : progress.snums = progress.taken.map portions.element
  below : ∀ p ∈ progress.taken, portions.element p < LONG_MAX
  ordered : ∀ p ∈ progress.taken, ∀ q, progress.Remaining TNUM q → portions.Before p q
  pairwise : progress.taken.Pairwise portions.Before
  last : progress.taken = [] ∧ progress.minidx = none ∨ ∃ before p i,
    progress.taken = before ++ [p] ∧ progress.minidx = some i ∧ progress.idx i = p + 1

theorem Advanced.initial (portions : Portions NTHR TNUM) :
    Advanced portions (.initial NTHR TNUM) where
  low := fun _ => Nat.le_refl _
  taken := by
    intro p
    constructor
    · exact nofun
    · rintro ⟨i, low, high⟩
      exact absurd low (Nat.not_le_of_lt high)
  inside := nofun
  values := rfl
  below := nofun
  ordered := nofun
  pairwise := .nil
  last := .inl ⟨rfl, rfl⟩

/-- Every position is either taken or remains. -/
theorem Advanced.taken_or_remaining (advanced : Advanced portions progress) {p : Nat}
    (inside : p < NTHR * TNUM) : p ∈ progress.taken ∨ progress.Remaining TNUM p := by
  have segment : p / TNUM < NTHR := Nat.div_lt_of_lt_mul (by rwa [Nat.mul_comm])
  have low : p / TNUM * TNUM ≤ p := Nat.div_mul_le_self p TNUM
  have high : p < (p / TNUM + 1) * TNUM := by
    rw [Nat.mul_comm]
    exact Nat.lt_mul_div_succ p portions.someElement
  by_cases isTaken : p < progress.idx ⟨p / TNUM, segment⟩
  · left
    exact (advanced.taken p).mpr ⟨⟨p / TNUM, segment⟩, low, isTaken⟩
  · right
    exact ⟨⟨p / TNUM, segment⟩, Nat.le_of_not_lt isTaken, high⟩

theorem portion_unique {i j : Fin NTHR} {p : Nat} (low : i * TNUM ≤ p) (high : p < (i + 1) * TNUM)
    (lowThere : j * TNUM ≤ p) (highThere : p < (j + 1) * TNUM) : i = j := by
  have notBefore : ¬(i + 1) * TNUM ≤ j * TNUM := by omega
  have notBehind : ¬(j + 1) * TNUM ≤ i * TNUM := by omega
  apply Fin.ext
  have notLess : ¬(i : Nat) + 1 ≤ j := fun less => notBefore (Nat.mul_le_mul_right TNUM less)
  have notMore : ¬(j : Nat) + 1 ≤ i := fun more => notBehind (Nat.mul_le_mul_right TNUM more)
  omega

section Take

variable {m i : Fin NTHR} {value : Long}

@[simp] theorem Progress.take_idx_self :
    (progress.take m value).idx m = progress.idx m + 1 := Function.update_self _ _ _

theorem Progress.take_idx_of_ne (different : i ≠ m) :
    (progress.take m value).idx i = progress.idx i := Function.update_of_ne different _ _

theorem Progress.le_take_idx (i : Fin NTHR) : progress.idx i ≤ (progress.take m value).idx i := by
  by_cases same : i = m
  · rw [same, Progress.take_idx_self]
    exact Nat.le_succ _
  · rw [Progress.take_idx_of_ne same]

/-- What is left is what was left, without the element that was taken. -/
theorem Progress.remaining_of_take {p : Nat} (low : ∀ i : Fin NTHR, i * TNUM ≤ progress.idx i)
    (active : progress.idx m < (m + 1) * TNUM)
    (remains : (progress.take m value).Remaining TNUM p) :
    progress.Remaining TNUM p ∧ p ≠ progress.idx m := by
  rcases remains with ⟨i, from_, upto⟩
  refine ⟨⟨i, (Progress.le_take_idx i).trans from_, upto⟩, ?_⟩
  rintro rfl
  by_cases same : i = m
  · rw [same, Progress.take_idx_self] at from_
    exact absurd from_ (Nat.not_succ_le_self _)
  · rw [Progress.take_idx_of_ne same] at from_
    exact same (portion_unique ((low i).trans from_) upto (low m) active)

theorem Progress.lt_take_idx_iff {p : Nat} (low : ∀ i : Fin NTHR, i * TNUM ≤ progress.idx i) :
    (∃ i : Fin NTHR, i * TNUM ≤ p ∧ p < (progress.take m value).idx i) ↔
      (∃ i : Fin NTHR, i * TNUM ≤ p ∧ p < progress.idx i) ∨ p = progress.idx m := by
  constructor
  · rintro ⟨i, from_, upto⟩
    by_cases same : i = m
    · subst same
      rw [Progress.take_idx_self] at upto
      rcases Nat.lt_succ_iff_lt_or_eq.mp upto with before | here
      · exact Or.inl ⟨i, from_, before⟩
      · exact Or.inr here
    · rw [Progress.take_idx_of_ne same] at upto
      exact Or.inl ⟨i, from_, upto⟩
  · rintro (⟨i, from_, upto⟩ | rfl)
    · exact ⟨i, from_, upto.trans_le (Progress.le_take_idx i)⟩
    · refine ⟨m, low m, ?_⟩
      rw [Progress.take_idx_self]
      exact Nat.lt_succ_self _

/-- Taking the first of the remaining elements keeps the order. -/
theorem Advanced.take (advanced : Advanced portions progress)
    (active : progress.idx m < (m + 1) * TNUM)
    (below : portions.element (progress.idx m) < LONG_MAX)
    (later : ∀ p, progress.Remaining TNUM p →
      p = progress.idx m ∨ portions.Before (progress.idx m) p) :
    Advanced portions (progress.take m (portions.element (progress.idx m))) where
  low := fun i => (advanced.low i).trans (Progress.le_take_idx i)
  taken := by
    intro p
    rw [Progress.lt_take_idx_iff advanced.low, ← advanced.taken, Progress.take, List.mem_append,
      List.mem_singleton]
  inside := by
    intro p member
    rcases List.mem_append.mp member with before | here
    · exact advanced.inside p before
    · rw [List.mem_singleton.mp here]
      exact portion_inside m active
  values := by
    rw [Progress.take, advanced.values, List.map_append, List.map_singleton]
  below := by
    intro p member
    rcases List.mem_append.mp member with before | here
    · exact advanced.below p before
    · rw [List.mem_singleton.mp here]
      exact below
  ordered := by
    intro p member q remains
    rcases Progress.remaining_of_take advanced.low active remains with ⟨remained, different⟩
    rcases List.mem_append.mp member with before | here
    · exact advanced.ordered p before q remained
    · rw [List.mem_singleton.mp here]
      exact (later q remained).resolve_left different
  pairwise := by
    apply List.pairwise_append.mpr
    refine ⟨advanced.pairwise, List.pairwise_singleton _ _, fun p before q here => ?_⟩
    rw [List.mem_singleton.mp here]
    exact advanced.ordered p before _ ⟨m, Nat.le_refl _, active⟩
  last := .inr ⟨progress.taken, progress.idx m, m, rfl, rfl, Progress.take_idx_self⟩

end Take

/-- As long as an element below the maximum remains, a round takes the next one. -/
theorem Advanced.next (advanced : Advanced portions progress) {p : Nat}
    (remains : progress.Remaining TNUM p) (below : portions.element p < LONG_MAX) :
    ∃ next, mergeRound portions.nums TNUM progress = some next ∧ Advanced portions next ∧
      next.taken.length = progress.taken.length + 1 := by
  rcases choose_chosen portions advanced.low progress.minidx (List.finRange NTHR)
    (List.pairwise_lt_finRange NTHR) with ⟨chosen, ran, isChosen⟩
  rw [mergeRound, ran, Option.bind_eq_bind, Option.bind_some]
  -- Within its portion the first element is not greater than any other that remains.
  have first_le : ∀ i : Fin NTHR, ∀ q, progress.idx i ≤ q → q < (i + 1) * TNUM →
      portions.element (progress.idx i) ≤ portions.element q := fun i q from_ upto =>
    portions.sorted i i.isLt _ _ (advanced.low i) from_ upto
  cases isChosen with
  | nothing maxima =>
      rcases remains with ⟨i, from_, upto⟩
      have least := first_le i p from_ upto
      rw [maxima i (List.mem_finRange i) (from_.trans_lt upto)] at least
      exact absurd below (not_lt.mpr least)
  | first m _ active belowThere least =>
      simp only [Option.bind_eq_bind, Option.bind_some,
        portions.getElem?_eq (portion_inside m active)]
      refine ⟨_, rfl, advanced.take active belowThere ?_, List.length_append⟩
      rintro q ⟨i, from_, upto⟩
      have heads := first_le i q from_ upto
      rcases least i (List.mem_finRange i) (from_.trans_lt upto) with rfl | less | ⟨equal, before⟩
      · rcases Nat.eq_or_lt_of_le from_ with same | behind
        · exact Or.inl same.symm
        · rcases lt_or_eq_of_le heads with less | equal
          · exact Or.inr (Or.inl less)
          · exact Or.inr (Or.inr ⟨equal, behind⟩)
      · exact Or.inr (Or.inl (less.trans_le heads))
      · rw [← equal] at heads
        rcases lt_or_eq_of_le heads with less | same
        · exact Or.inr (Or.inl less)
        · exact Or.inr (Or.inr ⟨same, before.trans_le from_⟩)

/-- Once only maxima remain, a round takes what is behind the element taken last. -/
theorem mergeRound_stuck (low : ∀ i : Fin NTHR, i * TNUM ≤ progress.idx i)
    (maxima : ∀ p, progress.Remaining TNUM p → portions.element p = LONG_MAX) :
    mergeRound portions.nums TNUM progress = (do
      let minidx ← progress.minidx
      let value ← portions.nums[progress.idx minidx]?
      return progress.take minidx value) := by
  rcases choose_chosen portions low progress.minidx (List.finRange NTHR)
    (List.pairwise_lt_finRange NTHR) with ⟨chosen, ran, isChosen⟩
  rw [mergeRound, ran, Option.bind_eq_bind, Option.bind_some]
  cases isChosen with
  | nothing _ => rfl
  | first m _ active below _ =>
      rw [maxima _ ⟨m, Nat.le_refl _, active⟩] at below
      exact absurd below (lt_irrefl _)

/-- Only maxima remain, and the last element was taken from portion `m`. -/
structure Stuck (portions : Portions NTHR TNUM) (m : Fin NTHR) (progress : Progress NTHR) : Prop where
  low : ∀ i : Fin NTHR, i * TNUM ≤ progress.idx i
  maxima : ∀ p, progress.Remaining TNUM p → portions.element p = LONG_MAX
  minidx : progress.minidx = some m

theorem Stuck.next {m : Fin NTHR} (stuck : Stuck portions m progress)
    (inside : progress.idx m < NTHR * TNUM) :
    ∃ next, mergeRound portions.nums TNUM progress = some next ∧ Stuck portions m next ∧
      next.idx m = progress.idx m + 1 ∧
      next.taken = progress.taken ++ [progress.idx m] ∧
      next.snums = progress.snums ++ [portions.element (progress.idx m)] := by
  rw [mergeRound_stuck stuck.low stuck.maxima, stuck.minidx]
  simp only [Option.bind_eq_bind, Option.bind_some, portions.getElem?_eq inside]
  refine ⟨_, rfl, ⟨?_, ?_, rfl⟩, Progress.take_idx_self, rfl, rfl⟩
  · exact fun i => (stuck.low i).trans (Progress.le_take_idx i)
  · rintro p ⟨i, from_, upto⟩
    exact stuck.maxima p ⟨i, (Progress.le_take_idx i).trans from_, upto⟩

theorem Stuck.outside {m : Fin NTHR} (stuck : Stuck portions m progress)
    (outside : NTHR * TNUM ≤ progress.idx m) : mergeRound portions.nums TNUM progress = none := by
  rw [mergeRound_stuck stuck.low stuck.maxima, stuck.minidx]
  have missing : portions.nums[progress.idx m]? = none := by
    rw [List.getElem?_eq_none_iff, portions.full]
    exact outside
  simp only [Option.bind_eq_bind, Option.bind_some, missing, Option.bind_none]

/-- The remaining rounds copy what is behind the last element, up to the end of `nums`. -/
theorem Stuck.rounds {m : Fin NTHR} : ∀ {rounds : Nat} {progress : Progress NTHR},
    Stuck portions m progress → progress.idx m ≤ NTHR * TNUM →
    if progress.idx m + rounds ≤ NTHR * TNUM then
      ∃ final, mergeRounds portions.nums TNUM rounds progress = some final ∧
        final.taken = progress.taken ++ List.range' (progress.idx m) rounds ∧
        final.snums = progress.snums ++
          (List.range' (progress.idx m) rounds).map portions.element
    else mergeRounds portions.nums TNUM rounds progress = none
  | 0, progress, _, inside => by
      rw [Nat.add_zero, if_pos inside, List.range'_zero, List.map_nil, List.append_nil, List.append_nil]
      exact ⟨progress, rfl, rfl, rfl⟩
  | rounds + 1, progress, stuck, inside => by
      rw [mergeRounds]
      rcases Nat.eq_or_lt_of_le inside with atEnd | before
      · rw [if_neg (by omega), stuck.outside (Nat.le_of_eq atEnd.symm), Option.bind_eq_bind,
          Option.bind_none]
      · rcases stuck.next before with ⟨next, stepped, still, isIdx, isTaken, isSnums⟩
        have rest := @Stuck.rounds _ rounds next still (by omega)
        rw [stepped, Option.bind_eq_bind, Option.bind_some]
        rw [isIdx, isTaken, isSnums, Nat.add_assoc, Nat.add_comm 1 rounds] at rest
        rw [List.range'_succ, List.map_cons]
        simpa only [List.append_assoc, List.singleton_append] using rest

/-- Either all elements are taken in order, or at some point only maxima remain. -/
theorem Advanced.rounds : ∀ {rounds : Nat} {progress : Progress NTHR},
    Advanced portions progress → progress.taken.length + rounds = NTHR * TNUM →
    (∃ final, mergeRounds portions.nums TNUM rounds progress = some final ∧
      Advanced portions final ∧ final.taken.length = NTHR * TNUM) ∨
    ∃ between left, Advanced portions between ∧ between.taken.length + left = NTHR * TNUM ∧
      left ≠ 0 ∧
      mergeRounds portions.nums TNUM rounds progress = mergeRounds portions.nums TNUM left between ∧
      ∀ p, between.Remaining TNUM p → portions.element p = LONG_MAX
  | 0, progress, advanced, total => .inl ⟨progress, rfl, advanced, total⟩
  | rounds + 1, progress, advanced, total => by
      by_cases more : ∃ p, progress.Remaining TNUM p ∧ portions.element p < LONG_MAX
      · rcases more with ⟨p, remains, below⟩
        rcases advanced.next remains below with ⟨next, stepped, still, isLength⟩
        have same : mergeRounds portions.nums TNUM (rounds + 1) progress =
            mergeRounds portions.nums TNUM rounds next := by
          rw [mergeRounds, stepped, Option.bind_eq_bind, Option.bind_some]
        rw [same]
        exact still.rounds (by omega)
      · right
        refine ⟨progress, rounds + 1, advanced, total, Nat.succ_ne_zero rounds, rfl, ?_⟩
        intro p remains
        apply le_antisymm (Long.le_max _)
        exact not_lt.mp fun below => more ⟨p, remains, below⟩

end Rounds

/-! ## The whole merge -/

section Whole

variable {portions : Portions NTHR TNUM} {final between : Progress NTHR}

theorem Portions.map_element (portions : Portions NTHR TNUM) :
    (List.range (NTHR * TNUM)).map portions.element = portions.nums := by
  apply List.ext_getElem?
  intro p
  rw [List.getElem?_map]
  by_cases inside : p < NTHR * TNUM
  · rw [List.getElem?_range inside, Option.map_some, portions.getElem?_eq inside]
  · have outside : portions.nums[p]? = none := by
      rw [List.getElem?_eq_none_iff, portions.full]
      exact Nat.le_of_not_lt inside
    rw [List.getElem?_eq_none (by rw [List.length_range]; exact Nat.le_of_not_lt inside), outside,
      Option.map_none]

theorem Portions.Before.le {p q : Nat} (before : portions.Before p q) :
    portions.element p ≤ portions.element q := by
  rcases before with less | equal
  · exact le_of_lt less
  · exact le_of_eq equal.1

theorem Portions.Before.irrefl {p : Nat} (before : portions.Before p p) : False := by
  rcases before with less | equal
  · exact lt_irrefl _ less
  · exact Nat.lt_irrefl _ equal.2

theorem Portions.Before.asymm {p q : Nat} (before : portions.Before p q)
    (behind : portions.Before q p) : False := by
  rcases before with less | equal
  · exact absurd behind.le (not_le.mpr less)
  · rcases behind with less | other
    · rw [equal.1] at less
      exact lt_irrefl _ less
    · exact Nat.lt_asymm equal.2 other.2

theorem Advanced.nodup (advanced : Advanced portions final) : final.taken.Nodup :=
  advanced.pairwise.imp fun before same => by
    rw [same] at before
    exact before.irrefl

theorem Advanced.sorted (advanced : Advanced portions final) :
    (final.taken.map portions.element).Pairwise (· ≤ ·) :=
  List.pairwise_map.mpr (advanced.pairwise.imp Portions.Before.le)

/-- The last of the elements that were taken, once no other element below the maximum is left. -/
theorem Advanced.lastBelow (advanced : Advanced portions between)
    (maxima : ∀ p, between.Remaining TNUM p → portions.element p = LONG_MAX)
    {before : List Nat} {last : Nat} (isLast : between.taken = before ++ [last]) :
    portions.LastBelow last := by
  have member : last ∈ between.taken := by
    rw [isLast]
    exact List.mem_append_right _ (List.mem_singleton_self last)
  refine ⟨advanced.inside last member, advanced.below last member, fun p inside below => ?_⟩
  rcases advanced.taken_or_remaining inside with taken | remains
  · have pairwise := advanced.pairwise
    rw [isLast, List.pairwise_append] at pairwise
    rw [isLast] at taken
    rcases List.mem_append.mp taken with inFront | here
    · exact Or.inr (pairwise.2.2 p inFront last (List.mem_singleton_self last))
    · exact Or.inl (List.mem_singleton.mp here)
  · rw [maxima p remains] at below
    exact absurd below (lt_irrefl _)

theorem Portions.LastBelow.unique {last other : Nat} (isLast : portions.LastBelow last)
    (isOther : portions.LastBelow other) : other = last := by
  rcases isLast.greatest other isOther.inside isOther.below with same | before
  · exact same
  · rcases isOther.greatest last isLast.inside isLast.below with same | behind
    · exact same.symm
    · exact (before.asymm behind).elim

/-- What remains at that point, with the positions in order. -/
def remainder (portions : Portions NTHR TNUM) : List Nat :=
  (List.range (NTHR * TNUM)).filter fun p => portions.element p = LONG_MAX

theorem Advanced.taken_append_remainder (advanced : Advanced portions between)
    (maxima : ∀ p, between.Remaining TNUM p → portions.element p = LONG_MAX) :
    (between.taken ++ remainder portions).Perm (List.range (NTHR * TNUM)) := by
  have apart : ∀ p ∈ between.taken, ∀ q ∈ remainder portions, p ≠ q := by
    rintro p taken _ inside rfl
    have isMaximum := of_decide_eq_true (List.mem_filter.mp inside).2
    have below := advanced.below p taken
    rw [isMaximum] at below
    exact lt_irrefl _ below
  have nodup : (between.taken ++ remainder portions).Nodup :=
    List.nodup_append.mpr ⟨advanced.nodup, List.nodup_range.filter _, apart⟩
  apply (List.perm_ext_iff_of_nodup nodup List.nodup_range).mpr
  intro p
  rw [List.mem_append, List.mem_range]
  constructor
  · rintro (taken | inside)
    · exact advanced.inside p taken
    · exact List.mem_range.mp (List.mem_filter.mp inside).1
  · intro inside
    rcases advanced.taken_or_remaining inside with taken | remains
    · exact Or.inl taken
    · right
      exact List.mem_filter.mpr ⟨List.mem_range.mpr inside, decide_eq_true (maxima p remains)⟩

theorem mem_remainder {p : Nat} :
    p ∈ remainder portions ↔ p < NTHR * TNUM ∧ portions.element p = LONG_MAX := by
  rw [remainder, List.mem_filter, List.mem_range, decide_eq_true_eq]

/-- The maxima follow an element where they take up the positions behind it. -/
theorem remainder_follows_iff {last : Nat} :
    (remainder portions).Perm (List.range' (last + 1) (remainder portions).length) ↔
      ∀ p < NTHR * TNUM, portions.element p = LONG_MAX →
        last < p ∧ ∀ q, last < q → q ≤ p → portions.element q = LONG_MAX := by
  constructor
  · intro same p inside isMaximum
    have place := same.mem_iff.mp (mem_remainder.mpr ⟨inside, isMaximum⟩)
    rw [List.mem_range'_1] at place
    refine ⟨by omega, fun q behind upto => ?_⟩
    have inRange : q ∈ List.range' (last + 1) (remainder portions).length := by
      rw [List.mem_range'_1]
      omega
    exact (mem_remainder.mp (same.mem_iff.mpr inRange)).2
  · intro follow
    have nodup : (remainder portions).Nodup := List.nodup_range.filter _
    have inside : remainder portions ⊆ List.range' (last + 1) (remainder portions).length := by
      intro p member
      rcases follow p (mem_remainder.mp member).1 (mem_remainder.mp member).2 with ⟨behind, between⟩
      -- All positions from the last one below the maximum up to this one are among the maxima.
      have covered : Finset.Ioc last p ⊆ (remainder portions).toFinset := by
        intro q isBetween
        rw [Finset.mem_Ioc] at isBetween
        rw [List.mem_toFinset, mem_remainder]
        exact ⟨isBetween.2.trans_lt (mem_remainder.mp member).1,
          between q isBetween.1 isBetween.2⟩
      have count := Finset.card_le_card covered
      rw [Nat.card_Ioc, List.toFinset_card_of_nodup nodup] at count
      rw [List.mem_range'_1]
      omega
    apply (List.subperm_of_subset nodup inside).perm_of_length_le
    rw [List.length_range']

theorem Portions.merges_of_taken
    (ran : merge portions.nums NTHR TNUM = some final)
    (all : final.taken.Perm (List.range (NTHR * TNUM)))
    (values : final.snums = final.taken.map portions.element)
    (ordered : (final.taken.map portions.element).Pairwise (· ≤ ·)) : portions.Merges := by
  refine ⟨final, ran, all, ?_, ?_⟩
  · rw [values, ← portions.map_element]
    exact all.map _
  · rw [values]
    exact ordered

/-- Where all elements were taken in order, none is equal to the maximum. -/
theorem Advanced.complete (advanced : Advanced portions final)
    (total : final.taken.length = NTHR * TNUM) :
    final.taken.Perm (List.range (NTHR * TNUM)) := by
  have inside : final.taken ⊆ List.range (NTHR * TNUM) := fun p member =>
    List.mem_range.mpr (advanced.inside p member)
  apply (List.subperm_of_subset advanced.nodup inside).perm_of_length_le
  rw [total, List.length_range]

theorem Advanced.none_remains (advanced : Advanced portions final)
    (total : final.taken.length = NTHR * TNUM) {p : Nat} : ¬final.Remaining TNUM p := by
  intro remains
  rcases remains with ⟨i, from_, upto⟩
  have taken := (advanced.complete total).mem_iff.mpr (List.mem_range.mpr (portion_inside i upto))
  exact (advanced.ordered p taken p ⟨i, from_, upto⟩).irrefl

theorem Portions.positive (portions : Portions NTHR TNUM) : 0 < NTHR * TNUM :=
  Nat.mul_pos portions.someThread portions.someElement

theorem Advanced.stuck (advanced : Advanced portions between)
    (maxima : ∀ p, between.Remaining TNUM p → portions.element p = LONG_MAX)
    (some_taken : between.taken ≠ []) : ∃ m before last, Stuck portions m between ∧
      between.taken = before ++ [last] ∧ between.idx m = last + 1 := by
  rcases advanced.last with ⟨isEmpty, _⟩ | ⟨before, last, m, isLast, isSet, isIdx⟩
  · exact absurd isEmpty some_taken
  · exact ⟨m, before, last, ⟨advanced.low, maxima, isSet⟩, isLast, isIdx⟩

end Whole

/-- The merge is right exactly where the maxima of `nums` follow the other element that is taken
last: a maximum is never chosen, so that the portion chosen last is read on. -/
theorem merge_sorts_iff (portions : Portions NTHR TNUM) :
    portions.Merges ↔ portions.MaximaFollow := by
  have start : (Progress.initial NTHR TNUM).taken.length + NTHR * TNUM = NTHR * TNUM := Nat.zero_add _
  rcases (Advanced.initial portions).rounds start with
    ⟨final, ran, advanced, total⟩ | ⟨between, left, advanced, total, more, sameRun, maxima⟩
  · have all := advanced.complete total
    constructor
    · intro _
      have nonempty : final.taken ≠ [] := by
        intro isEmpty
        rw [isEmpty] at total
        exact absurd total (Nat.ne_of_lt portions.positive)
      have noneLeft : ∀ p, final.Remaining TNUM p → portions.element p = LONG_MAX := fun p remains =>
        absurd remains (advanced.none_remains total)
      rcases advanced.stuck noneLeft nonempty with ⟨_, before, last, _, isLast, _⟩
      refine ⟨last, advanced.lastBelow noneLeft isLast, fun p inside isMaximum => ?_⟩
      have below := advanced.below p (all.mem_iff.mpr (List.mem_range.mpr inside))
      rw [isMaximum] at below
      exact absurd below (lt_irrefl _)
    · intro _
      exact Portions.merges_of_taken ran all advanced.values advanced.sorted
  · have placed := advanced.taken_append_remainder maxima
    have isLeft : (remainder portions).length = left := by
      have lengths := placed.length_eq
      rw [List.length_append, List.length_range] at lengths
      omega
    constructor
    · rintro ⟨final, ran, all, _⟩
      have ranOn : mergeRounds portions.nums TNUM left between = some final := sameRun.symm.trans ran
      have nonempty : between.taken ≠ [] := by
        intro isEmpty
        rcases advanced.last with ⟨_, notSet⟩ | ⟨before, last, m, isLast, _⟩
        · rcases Nat.exists_eq_succ_of_ne_zero more with ⟨rounds, rfl⟩
          rw [mergeRounds, mergeRound_stuck advanced.low maxima, notSet] at ranOn
          cases ranOn
        · rw [isEmpty] at isLast
          exact absurd isLast.symm (List.concat_ne_nil _ _)
      rcases advanced.stuck maxima nonempty with ⟨m, before, last, stuck, isLast, isIdx⟩
      refine ⟨last, advanced.lastBelow maxima isLast, remainder_follows_iff.mp ?_⟩
      have inside : last < NTHR * TNUM := (advanced.lastBelow maxima isLast).inside
      have rest := @Stuck.rounds _ _ _ _ left between stuck (by omega)
      split at rest
      · rcases rest with ⟨other, ranThere, taken, _⟩
        rw [ranOn] at ranThere
        cases ranThere
        rw [taken, isIdx] at all
        rw [isLeft]
        exact (List.perm_append_left_iff _).mp (placed.trans all.symm)
      · rw [ranOn] at rest
        cases rest
    · rintro ⟨last, isLast, follow⟩
      have nonempty : between.taken ≠ [] := by
        intro isEmpty
        rcases advanced.taken_or_remaining isLast.inside with taken | remains
        · rw [isEmpty] at taken
          cases taken
        · have below := isLast.below
          rw [maxima last remains] at below
          exact lt_irrefl _ below
      rcases advanced.stuck maxima nonempty with ⟨m, before, other, stuck, isOther, isIdx⟩
      have same := isLast.unique (advanced.lastBelow maxima isOther)
      subst same
      have behind := remainder_follows_iff.mpr follow
      rw [isLeft] at behind
      have fits : other + 1 + left ≤ NTHR * TNUM := by
        have lastPlace : other + left ∈ List.range' (other + 1) left := by
          rw [List.mem_range'_1]
          omega
        have inside := (mem_remainder.mp (behind.mem_iff.mpr lastPlace)).1
        omega
      have rest := @Stuck.rounds _ _ _ _ left between stuck (by omega)
      rw [isIdx, if_pos fits] at rest
      rcases rest with ⟨final, ran, taken, snums⟩
      apply Portions.merges_of_taken (sameRun.trans ran)
      · rw [taken]
        exact ((List.perm_append_left_iff _).mpr behind.symm).trans placed
      · rw [taken, snums, advanced.values, List.map_append]
      · rw [taken, List.map_append, List.pairwise_append]
        have maximal : ∀ value ∈ (List.range' (other + 1) left).map portions.element,
            value = LONG_MAX := by
          intro value member
          rcases List.mem_map.mp member with ⟨p, place, rfl⟩
          exact (mem_remainder.mp (behind.mem_iff.mpr place)).2
        refine ⟨advanced.sorted, ?_, fun value _ later member => ?_⟩
        · apply List.pairwise_of_forall_mem_list
          intro value _ later member
          rw [maximal later member]
          exact Long.le_max value
        · rw [maximal later member]
          exact Long.le_max value

/-- The first thread has only the maximum: it is never chosen, and the second round reads behind
the end of `nums`. -/
def maximumFirst : Portions 2 1 where
  nums := [LONG_MAX, ⟨1, by decide⟩]
  full := rfl
  someThread := by decide
  someElement := by decide
  sorted := by
    intro i _ p q low between high
    have same : p = q := by omega
    rw [same]

theorem maximumFirst_lost : ¬maximumFirst.Merges := by
  rintro ⟨final, ran, _⟩
  have undefined_ : merge maximumFirst.nums 2 1 = none := by decide
  rw [undefined_] at ran
  cases ran

end Apue.Threads.Merging
