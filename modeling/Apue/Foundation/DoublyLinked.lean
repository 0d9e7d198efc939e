import Apue.Foundation.LinkedHeap

/-! # Doubly linked lists in a heap

The cells of a list know the addresses of their neighbours, and two variables hold
the addresses of its first and last cell. An entry of the list is an address with
what its cell holds besides.
-/

namespace Apue.Foundation

/-- What the fields of a cell are used for. -/
structure Links (Cell Label : Type) where
  next : Cell → Option Address
  prev : Cell → Option Address
  label : Cell → Label

variable {Cell Label : Type}

def firstAddress (entries : List (Address × Label)) : Option Address :=
  entries.head?.map Prod.fst

def lastAddress (entries : List (Address × Label)) : Option Address :=
  entries.getLast?.map Prod.fst

/-- A cell that is linked to its neighbours. -/
structure Links.Fits (links : Links Cell Label) (heap : Heap Cell)
    (before : List (Address × Label)) (entry : Address × Label) (after : List (Address × Label))
    (cell : Cell) : Prop where
  found : heap.lookup entry.1 = some cell
  label : links.label cell = entry.2
  next : links.next cell = firstAddress after
  prev : links.prev cell = lastAddress before

/-- Every cell is linked to its neighbours, and the variables to the ends. -/
structure Links.Chain (links : Links Cell Label) (heap : Heap Cell) (head tail : Option Address)
    (entries : List (Address × Label)) : Prop where
  head_eq : head = firstAddress entries
  tail_eq : tail = lastAddress entries
  nodup : (entries.map Prod.fst).Nodup
  cells : ∀ before entry after, entries = before ++ entry :: after →
    ∃ cell, links.Fits heap before entry after cell

@[simp] theorem firstAddress_cons (entry : Address × Label) (rest : List (Address × Label)) :
    firstAddress (entry :: rest) = some entry.1 := rfl

@[simp] theorem lastAddress_concat (front : List (Address × Label)) (entry : Address × Label) :
    lastAddress (front ++ [entry]) = some entry.1 := by
  rw [lastAddress, List.getLast?_concat]
  rfl

theorem lastAddress_cons_cons (entry other : Address × Label) (rest : List (Address × Label)) :
    lastAddress (entry :: other :: rest) = lastAddress (other :: rest) := by
  rw [lastAddress, List.getLast?_cons_cons, lastAddress]

theorem firstAddress_append (front back : List (Address × Label)) :
    firstAddress (front ++ back) = (firstAddress front).or (firstAddress back) := by
  cases front with
  | nil => rfl
  | cons entry front => rfl

theorem lastAddress_append (front back : List (Address × Label)) :
    lastAddress (front ++ back) = (lastAddress back).or (lastAddress front) := by
  rcases List.eq_nil_or_concat back with rfl | ⟨back, last, rfl⟩
  · rw [List.append_nil]
    rfl
  · rw [List.concat_eq_append, ← List.append_assoc, lastAddress_concat, lastAddress_concat]
    rfl

theorem mem_of_firstAddress {entries : List (Address × Label)} {address : Address}
    (isFirst : firstAddress entries = some address) : address ∈ entries.map Prod.fst := by
  rcases Option.map_eq_some_iff.mp isFirst with ⟨entry, first, rfl⟩
  exact List.mem_map_of_mem (List.mem_of_head? first)

theorem mem_of_lastAddress {entries : List (Address × Label)} {address : Address}
    (isLast : lastAddress entries = some address) : address ∈ entries.map Prod.fst := by
  rcases Option.map_eq_some_iff.mp isLast with ⟨entry, last, rfl⟩
  exact List.mem_map_of_mem (List.mem_of_getLast? last)

namespace Links.Chain

variable {links : Links Cell Label} {heap other : Heap Cell} {head tail : Option Address}
  {entries rest : List (Address × Label)} {entry new : Address × Label}

theorem empty (links : Links Cell Label) (heap : Heap Cell) : links.Chain heap none none [] where
  head_eq := rfl
  tail_eq := rfl
  nodup := List.nodup_nil
  cells := fun before _ _ split => absurd split.symm (by simp)

theorem eq_nil_of_head (chain : links.Chain heap head tail entries) (noHead : head = none) :
    entries = [] := by
  have isFirst := chain.head_eq
  rw [noHead] at isFirst
  cases entries with
  | nil => rfl
  | cons entry rest => cases isFirst

theorem eq_nil_of_tail (chain : links.Chain heap head tail entries) (noTail : tail = none) :
    entries = [] := by
  have isLast := chain.tail_eq
  rw [noTail] at isLast
  rcases List.eq_nil_or_concat entries with isNil | ⟨front, last, isConcat⟩
  · exact isNil
  · rw [isConcat, List.concat_eq_append, lastAddress_concat] at isLast
    cases isLast

/-- A list with a head has its last cell already. -/
theorem tail_or {first : Address} (chain : links.Chain heap head tail entries)
    (isHead : head = some first) (address : Option Address) : tail.or address = tail := by
  cases isTail : tail with
  | none =>
      have noFirst := chain.head_eq
      rw [chain.eq_nil_of_tail isTail, isHead] at noFirst
      cases noFirst
  | some last => rfl

/-- A list with a tail has its first cell already. -/
theorem head_or {last : Address} (chain : links.Chain heap head tail entries)
    (isTail : tail = some last) (address : Option Address) : head.or address = head := by
  cases isHead : head with
  | none =>
      have noLast := chain.tail_eq
      rw [chain.eq_nil_of_head isHead, isTail] at noLast
      cases noLast
  | some first => rfl

/-- Following `next` from the head meets the entries. -/
theorem path (chain : links.Chain heap head tail entries) :
    heap.Path links.next head (entries.map Prod.fst) := by
  have behind : ∀ after before, entries = before ++ after →
      heap.Path links.next (firstAddress after) (after.map Prod.fst) := by
    intro after
    induction after with
    | nil => exact fun _ _ => rfl
    | cons entry after hypothesis =>
        intro before split
        rcases chain.cells before entry after split with ⟨cell, fits⟩
        refine ⟨rfl, cell, fits.found, ?_⟩
        rw [fits.next]
        apply hypothesis (before ++ [entry])
        rw [List.append_assoc, List.singleton_append]
        exact split
  rw [chain.head_eq]
  exact behind entries [] rfl

/-- The last cell of a part of the list is not among those in front of it. -/
theorem last_ne (chain : links.Chain heap head tail entries) {before after : List (Address × Label)}
    (split : entries = before ++ entry :: after) (more : after ≠ []) : tail ≠ some entry.1 := by
  intro isLast
  rw [chain.tail_eq, split, lastAddress, List.getLast?_append_of_ne_nil _ (List.cons_ne_nil _ _),
    List.getLast?_cons_of_ne_nil more] at isLast
  have distinct := chain.nodup
  rw [split, List.map_append, List.map_cons] at distinct
  have apart := (List.nodup_cons.mp (List.nodup_append.mp distinct).2.1).1
  exact apart (mem_of_lastAddress isLast)

/-- What is outside a list does not matter to it. -/
theorem congr (chain : links.Chain heap head tail entries)
    (same : ∀ address ∈ entries.map Prod.fst, other.lookup address = heap.lookup address) :
    links.Chain other head tail entries where
  head_eq := chain.head_eq
  tail_eq := chain.tail_eq
  nodup := chain.nodup
  cells := by
    intro before entry after split
    rcases chain.cells before entry after split with ⟨cell, fits⟩
    have member : entry.1 ∈ entries.map Prod.fst := by
      rw [split]
      exact List.mem_map_of_mem (List.mem_append_right _ List.mem_cons_self)
    exact ⟨cell, (same entry.1 member).trans fits.found, fits.label, fits.next, fits.prev⟩

theorem exists_cell (chain : links.Chain heap head tail entries) {address : Address}
    (member : address ∈ entries.map Prod.fst) : ∃ cell, heap.lookup address = some cell := by
  rcases List.mem_map.mp member with ⟨entry, inside, rfl⟩
  rcases List.append_of_mem inside with ⟨before, after, split⟩
  rcases chain.cells before entry after split with ⟨cell, fits⟩
  exact ⟨cell, fits.found⟩

/-- A new cell behind the last one. -/
theorem pushBack (chain : links.Chain heap head tail entries) (fresh : new.1 ∉ entries.map Prod.fst)
    (added : ∃ cell, other.lookup new.1 = some cell ∧ links.label cell = new.2 ∧
      links.next cell = none ∧ links.prev cell = tail)
    (changed : ∀ address ∈ entries.map Prod.fst, ∀ cell, heap.lookup address = some cell →
      ∃ cell', other.lookup address = some cell' ∧ links.label cell' = links.label cell ∧
        links.prev cell' = links.prev cell ∧
        links.next cell' = if tail = some address then some new.1 else links.next cell) :
    links.Chain other (head.or (some new.1)) (some new.1) (entries ++ [new]) where
  head_eq := by
    rw [chain.head_eq]
    cases entries with
    | nil => rfl
    | cons entry rest => rfl
  tail_eq := (lastAddress_concat _ _).symm
  nodup := by
    rw [List.map_append, List.map_singleton]
    exact List.nodup_append.mpr ⟨chain.nodup, List.nodup_singleton _, by
      rintro address member _ isNew rfl
      rw [List.mem_singleton.mp isNew] at member
      exact fresh member⟩
  cells := by
    intro before entry after split
    rcases List.eq_nil_or_concat after with rfl | ⟨inner, last, rfl⟩
    · rcases List.append_inj' split rfl with ⟨rfl, same⟩
      cases same
      rcases added with ⟨cell, found, label, next, prev⟩
      exact ⟨cell, found, label, next, prev.trans chain.tail_eq⟩
    · rw [List.concat_eq_append, ← List.cons_append, ← List.append_assoc] at split
      rcases List.append_inj' split rfl with ⟨isFront, same⟩
      cases same
      rcases chain.cells before entry inner isFront with ⟨cell, fits⟩
      have member : entry.1 ∈ entries.map Prod.fst := by
        rw [isFront]
        exact List.mem_map_of_mem (List.mem_append_right _ List.mem_cons_self)
      rcases changed entry.1 member cell fits.found with ⟨cell', found, label, prev, next⟩
      refine ⟨cell', found, label.trans fits.label, ?_, prev.trans fits.prev⟩
      rw [next]
      cases inner with
      | nil =>
          have isLast : tail = some entry.1 := by
            rw [chain.tail_eq, isFront, lastAddress_concat]
          rw [if_pos isLast]
          rfl
      | cons first inner =>
          rw [if_neg (chain.last_ne isFront (List.cons_ne_nil _ _)), fits.next]
          rfl

/-- A new cell in front of the first one. -/
theorem pushFront (chain : links.Chain heap head tail entries)
    (fresh : new.1 ∉ entries.map Prod.fst)
    (added : ∃ cell, other.lookup new.1 = some cell ∧ links.label cell = new.2 ∧
      links.next cell = head ∧ links.prev cell = none)
    (changed : ∀ address ∈ entries.map Prod.fst, ∀ cell, heap.lookup address = some cell →
      ∃ cell', other.lookup address = some cell' ∧ links.label cell' = links.label cell ∧
        links.next cell' = links.next cell ∧
        links.prev cell' = if head = some address then some new.1 else links.prev cell) :
    links.Chain other (some new.1) (tail.or (some new.1)) (new :: entries) where
  head_eq := rfl
  tail_eq := by
    rw [chain.tail_eq]
    cases entries with
    | nil => rfl
    | cons entry rest =>
        rw [lastAddress_cons_cons]
        rcases List.eq_nil_or_concat (entry :: rest) with isNil | ⟨front, last, isConcat⟩
        · cases isNil
        · rw [isConcat, List.concat_eq_append, lastAddress_concat]
          rfl
  nodup := List.nodup_cons.mpr ⟨fresh, chain.nodup⟩
  cells := by
    intro before entry after split
    cases before with
    | nil =>
        cases split
        rcases added with ⟨cell, found, label, next, prev⟩
        exact ⟨cell, found, label, next.trans chain.head_eq, prev⟩
    | cons first before =>
        rw [List.cons_append] at split
        rcases List.cons.inj split with ⟨rfl, isRest⟩
        rcases chain.cells before entry after isRest with ⟨cell, fits⟩
        have member : entry.1 ∈ entries.map Prod.fst := by
          rw [isRest]
          exact List.mem_map_of_mem (List.mem_append_right _ List.mem_cons_self)
        rcases changed entry.1 member cell fits.found with ⟨cell', found, label, next, prev⟩
        refine ⟨cell', found, label.trans fits.label, next.trans fits.next, ?_⟩
        rw [prev]
        cases before with
        | nil =>
            have isFirst : head = some entry.1 := by
              rw [chain.head_eq, isRest]
              rfl
            rw [if_pos isFirst]
            rfl
        | cons second before =>
            have notFirst : head ≠ some entry.1 := by
              intro isFirst
              rw [chain.head_eq, isRest] at isFirst
              have distinct := chain.nodup
              rw [isRest, List.cons_append, List.map_cons] at distinct
              apply (List.nodup_cons.mp distinct).1
              rw [Option.some.inj isFirst]
              exact List.mem_map_of_mem (List.mem_append_right _ List.mem_cons_self)
            rw [if_neg notFirst, fits.prev, lastAddress_cons_cons]

/-- Following `prev` from the tail meets the entries from the last to the first. -/
theorem pathBack (chain : links.Chain heap head tail entries) :
    heap.Path links.prev tail (entries.map Prod.fst).reverse := by
  have inFront : ∀ before after, entries = before ++ after →
      heap.Path links.prev (lastAddress before) (before.map Prod.fst).reverse := by
    intro before
    induction before using List.reverseRecOn with
    | nil => exact fun _ _ => rfl
    | append_singleton before entry hypothesis =>
        intro after split
        rw [List.append_assoc, List.singleton_append] at split
        rcases chain.cells before entry after split with ⟨cell, fits⟩
        rw [lastAddress_concat, List.map_append, List.map_singleton, List.reverse_concat]
        refine ⟨rfl, cell, fits.found, ?_⟩
        rw [fits.prev]
        exact hypothesis (entry :: after) split
  rw [chain.tail_eq]
  exact inFront entries [] (List.append_nil _).symm

/-- A cell is taken off the list, and its neighbours are linked to each other. -/
theorem remove {front back : List (Address × Label)}
    (chain : links.Chain heap head tail (front ++ entry :: back))
    (changed : ∀ address ∈ (front ++ back).map Prod.fst, ∀ cell, heap.lookup address = some cell →
      ∃ cell', other.lookup address = some cell' ∧ links.label cell' = links.label cell ∧
        links.next cell' = (if lastAddress front = some address then firstAddress back
          else links.next cell) ∧
        links.prev cell' = if firstAddress back = some address then lastAddress front
          else links.prev cell) :
    links.Chain other ((firstAddress front).or (firstAddress back))
      ((lastAddress back).or (lastAddress front)) (front ++ back) where
  head_eq := (firstAddress_append _ _).symm
  tail_eq := (lastAddress_append _ _).symm
  nodup := by
    have fewer : (front ++ back).Sublist (front ++ entry :: back) :=
      (List.sublist_cons_self entry back).append_left front
    exact (fewer.map Prod.fst).nodup chain.nodup
  cells := by
    intro before inner after split
    have distinct := chain.nodup
    rw [List.map_append, List.map_cons] at distinct
    have apart : ∀ address, address ∈ front.map Prod.fst → address ∉ back.map Prod.fst := by
      intro address inFront inBack
      exact (List.nodup_append.mp distinct).2.2 address inFront address
        (List.mem_cons_of_mem _ inBack) rfl
    have frontDistinct := (List.nodup_append.mp distinct).1
    have backDistinct := (List.nodup_cons.mp (List.nodup_append.mp distinct).2.1).2
    have member : inner.1 ∈ (front ++ back).map Prod.fst := by
      rw [split]
      exact List.mem_map_of_mem (List.mem_append_right _ List.mem_cons_self)
    -- A cell behind the one that goes loses its predecessor if it is the first of them.
    have behind : ∀ middle, before = front ++ middle → back = middle ++ inner :: after →
        ∃ cell, links.Fits other before inner after cell := by
      intro middle isBefore isBack
      have whole : front ++ entry :: back = (front ++ entry :: middle) ++ inner :: after := by
        rw [isBack, List.append_assoc, List.cons_append]
      rcases chain.cells _ _ _ whole with ⟨cell, fits⟩
      rcases changed inner.1 member cell fits.found with ⟨cell', found, label, next, prev⟩
      have inBack : inner.1 ∈ back.map Prod.fst := by
        rw [isBack]
        exact List.mem_map_of_mem (List.mem_append_right _ List.mem_cons_self)
      have notLast : lastAddress front ≠ some inner.1 := fun isLast =>
        apart inner.1 (mem_of_lastAddress isLast) inBack
      rw [if_neg notLast] at next
      refine ⟨cell', found, label.trans fits.label, next.trans fits.next, prev.trans ?_⟩
      rw [isBefore]
      cases middle with
      | nil =>
          have isFirst : firstAddress back = some inner.1 := by
            rw [isBack]
            rfl
          rw [if_pos isFirst, List.append_nil]
      | cons first middle =>
          have notFirst : firstAddress back ≠ some inner.1 := by
            intro isFirst
            rw [isBack, List.cons_append, List.map_cons] at backDistinct
            rw [isBack] at isFirst
            apply (List.nodup_cons.mp backDistinct).1
            rw [Option.some.inj isFirst]
            exact List.mem_map_of_mem (List.mem_append_right _ List.mem_cons_self)
          rw [if_neg notFirst, fits.prev, lastAddress_append, lastAddress_append,
            lastAddress_cons_cons]
    rcases List.append_eq_append_iff.mp split with ⟨middle, isBefore, isBack⟩ | ⟨rest, isFront, isAfter⟩
    · exact behind middle isBefore isBack
    · cases rest with
      | nil =>
          rw [List.append_nil] at isFront
          exact behind [] (by rw [List.append_nil, isFront]) isAfter.symm
      | cons first rest =>
          rcases List.cons.inj isAfter with ⟨rfl, isRest⟩
          have whole : front ++ entry :: back = before ++ inner :: (rest ++ entry :: back) := by
            rw [isFront, List.append_assoc, List.cons_append]
          rcases chain.cells _ _ _ whole with ⟨cell, fits⟩
          rcases changed inner.1 member cell fits.found with ⟨cell', found, label, next, prev⟩
          have inFront : inner.1 ∈ front.map Prod.fst := by
            rw [isFront]
            exact List.mem_map_of_mem (List.mem_append_right _ List.mem_cons_self)
          have notFirst : firstAddress back ≠ some inner.1 := fun isFirst =>
            apart inner.1 inFront (mem_of_firstAddress isFirst)
          rw [if_neg notFirst] at prev
          refine ⟨cell', found, label.trans fits.label, next.trans ?_, prev.trans fits.prev⟩
          rw [isRest]
          cases rest with
          | nil =>
              have isLast : lastAddress front = some inner.1 := by
                rw [isFront, lastAddress_concat]
              rw [if_pos isLast]
              rfl
          | cons second rest =>
              have notLast : lastAddress front ≠ some inner.1 := by
                intro isLast
                rw [isFront, lastAddress_append, lastAddress_cons_cons] at isLast
                rw [isFront, List.map_append] at frontDistinct
                have apartBehind := (List.nodup_cons.mp (List.nodup_append.mp frontDistinct).2.1).1
                apply apartBehind
                apply mem_of_lastAddress
                rcases List.eq_nil_or_concat (second :: rest) with isNil | ⟨inside, last, isConcat⟩
                · cases isNil
                · rw [isConcat, List.concat_eq_append, lastAddress_concat] at isLast ⊢
                  exact isLast
              rw [if_neg notLast, fits.next]
              rfl

end Links.Chain

end Apue.Foundation
