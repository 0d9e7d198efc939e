import Mathlib.Data.Finset.Card
import Mathlib.Data.List.Nodup
import Mathlib.Order.Interval.Finset.Nat

/-! # Singly linked lists of numbered cells

`next field` is the number stored in the pointer field `field`; number 0 ends a
list. `Linked next field cells` says that following the pointers from `field`
meets exactly `cells` and then 0. The pointer field of a cell has the number of
the cell.
-/

namespace Apue.Foundation

def Linked (next : Nat → Option Nat) : Nat → List Nat → Prop
  | field, [] => next field = some 0
  | field, cell :: cells => next field = some cell ∧ Linked next cell cells

/-- The first of some cells, or 0. -/
def firstCell (cells : List Nat) : Nat := cells.headD 0

/-- The field behind some cells of a list that starts at `field`. -/
def lastField (field : Nat) (before : List Nat) : Nat := before.getLastD field

@[simp] theorem firstCell_cons (cell : Nat) (cells : List Nat) :
    firstCell (cell :: cells) = cell := rfl

@[simp] theorem lastField_nil (field : Nat) : lastField field [] = field := rfl

@[simp] theorem lastField_cons (field cell : Nat) (cells : List Nat) :
    lastField field (cell :: cells) = lastField cell cells :=
  List.getLastD_cons

@[simp] theorem lastField_concat (field cell : Nat) (cells : List Nat) :
    lastField field (cells ++ [cell]) = cell := by
  rw [lastField, List.getLastD_concat]

theorem lastField_mem (field : Nat) (cells : List Nat) :
    lastField field cells ∈ field :: cells := by
  induction cells generalizing field with
  | nil => exact List.mem_singleton.mpr rfl
  | cons cell cells hypothesis =>
      rw [lastField_cons]
      exact List.mem_cons_of_mem _ (hypothesis cell)

variable {next other : Nat → Option Nat} {field cell : Nat} {cells before after : List Nat}

theorem Linked.first (linked : Linked next field cells) :
    next field = some (firstCell cells) := by
  cases cells with
  | nil => exact linked
  | cons cell cells => exact linked.1

theorem Linked.congr (linked : Linked next field cells)
    (same : ∀ number ∈ field :: cells, other number = next number) :
    Linked other field cells := by
  induction cells generalizing field with
  | nil => exact (same field (List.mem_singleton.mpr rfl)).trans linked
  | cons cell cells hypothesis =>
      exact ⟨(same field List.mem_cons_self).trans linked.1,
        hypothesis linked.2 fun number member =>
          same number (List.mem_cons_of_mem _ member)⟩

/-- What a pointer field holds may be known from elsewhere. -/
theorem Linked.mono (linked : Linked next field cells)
    (same : ∀ number value, next number = some value → other number = some value) :
    Linked other field cells := by
  induction cells generalizing field with
  | nil => exact same field 0 linked
  | cons cell cells hypothesis => exact ⟨same field cell linked.1, hypothesis linked.2⟩

/-- The list behind some of its cells. -/
theorem Linked.behind (linked : Linked next field (before ++ after)) :
    Linked next (lastField field before) after := by
  induction before generalizing field with
  | nil => exact linked
  | cons first before hypothesis =>
      rw [lastField_cons]
      exact hypothesis linked.2

/-- A field leads to one list only. -/
theorem Linked.unique {others : List Nat} (linked : Linked next field cells)
    (linkedOthers : Linked next field others) (positive : ∀ cell ∈ cells, cell ≠ 0)
    (positiveOthers : ∀ cell ∈ others, cell ≠ 0) : cells = others := by
  induction cells generalizing field others with
  | nil =>
      cases others with
      | nil => rfl
      | cons first rest =>
          have same := Option.some.inj (linked.symm.trans linkedOthers.1)
          exact absurd same.symm (positiveOthers first List.mem_cons_self)
  | cons cell cells hypothesis =>
      cases others with
      | nil =>
          have same := Option.some.inj (linkedOthers.symm.trans linked.1)
          exact absurd same.symm (positive cell List.mem_cons_self)
      | cons first rest =>
          have same : cell = first := Option.some.inj (linked.1.symm.trans linkedOthers.1)
          subst same
          rw [hypothesis linked.2 linkedOthers.2
            (fun other member => positive other (List.mem_cons_of_mem _ member))
            fun other member => positiveOthers other (List.mem_cons_of_mem _ member)]

/-- A list that comes to its end has met no cell twice. -/
theorem Linked.nodup (linked : Linked next field cells) (positive : ∀ cell ∈ cells, cell ≠ 0) :
    (field :: cells).Nodup := by
  induction cells generalizing field with
  | nil => exact List.nodup_singleton _
  | cons cell cells hypothesis =>
      have later : ∀ other ∈ cells, other ≠ 0 := fun other member =>
        positive other (List.mem_cons_of_mem _ member)
      refine List.nodup_cons.mpr ⟨fun member => ?_, hypothesis linked.2 later⟩
      rcases List.append_of_mem member with ⟨before, after, split⟩
      -- The list behind the second visit would be the whole list.
      have whole : Linked next field ((before ++ [field]) ++ after) := by
        rw [List.append_assoc, List.singleton_append, ← split]
        exact linked
      have again := whole.behind
      rw [lastField_concat] at again
      have same := again.unique linked
        (fun other inside => positive other (by
          rw [split]
          exact List.mem_append_right _ (List.mem_cons_of_mem _ inside))) positive
      have lengths := congrArg List.length split
      rw [← same, List.length_append, List.length_cons] at lengths
      omega

/-- A new cell at the front of a list. -/
theorem Linked.push (linked : Linked next field cells)
    (fresh : cell ∉ field :: cells)
    (head : other field = some cell) (link : other cell = some (firstCell cells))
    (distinct : field ∉ cells)
    (same : ∀ number ∈ cells, other number = next number) :
    Linked other field (cell :: cells) := by
  refine ⟨head, ?_⟩
  cases cells with
  | nil => exact link
  | cons first rest =>
      exact ⟨link, linked.2.congr same⟩

/-- A cell is taken out of a list by redirecting the field that points to it. -/
theorem Linked.unlink (linked : Linked next field (before ++ cell :: after))
    (distinct : (field :: (before ++ cell :: after)).Nodup)
    (redirected : other (lastField field before) = some (firstCell after))
    (same : ∀ number ∈ field :: (before ++ after), number ≠ lastField field before →
      other number = next number) :
    Linked other field (before ++ after) := by
  induction before generalizing field with
  | nil =>
      have apart := List.nodup_cons.mp distinct
      rw [List.nil_append] at *
      cases after with
      | nil => exact redirected
      | cons first rest =>
          refine ⟨redirected, linked.2.2.congr fun number member => ?_⟩
          apply same number (List.mem_cons_of_mem _ member)
          rintro rfl
          exact apart.1 (List.mem_cons_of_mem _ member)
  | cons first before hypothesis =>
      rw [lastField_cons] at redirected same
      have apart := List.nodup_cons.mp distinct
      have other_last : field ≠ lastField first before := by
        rintro equal
        apply apart.1
        rw [equal, List.cons_append]
        rcases List.mem_cons.mp (lastField_mem first before) with isFirst | later
        · rw [isFirst]
          exact List.mem_cons_self
        · exact List.mem_cons_of_mem _ (List.mem_append_left _ later)
      refine ⟨(same field List.mem_cons_self other_last).trans linked.1, ?_⟩
      exact hypothesis linked.2 apart.2 redirected fun number member =>
        same number (List.mem_cons_of_mem _ member)

/-- Distinct numbers between two bounds are not more than what lies between. -/
theorem length_le_of_nodup {low bound : Nat} (distinct : cells.Nodup)
    (behind : ∀ number ∈ cells, low < number) (bounded : ∀ number ∈ cells, number ≤ bound) :
    cells.length ≤ bound - low := by
  rw [← List.toFinset_card_of_nodup distinct, ← Nat.card_Ioc]
  apply Finset.card_le_card
  intro number member
  rw [List.mem_toFinset] at member
  exact Finset.mem_Ioc.mpr ⟨behind number member, bounded number member⟩

end Apue.Foundation
