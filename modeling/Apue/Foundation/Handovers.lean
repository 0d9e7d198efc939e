import Mathlib.Data.Fintype.Card
import Mathlib.Data.Finset.Card
import Mathlib.Logic.Function.Basic

/-! # Waiting for something in stock

Some threads put things in stock and signal that they did, others look whether there is
something and sleep if there is not. A signal is not remembered: it wakes sleepers or is
lost. As long as somebody sleeps, the stock is never larger than the number of threads that
are about to signal or to look.
-/

namespace Apue.Foundation

/-- What a thread is about to do. -/
inductive Role
  | away
  /-- It has put something in stock and will signal. -/
  | announcing
  /-- It will not sleep before it has seen that there is nothing. -/
  | looking
  | asleep
  deriving DecidableEq

/-- The thread will do something about the stock, or have another do it. -/
def Role.Ready (role : Role) : Prop := role = .announcing ∨ role = .looking

instance (role : Role) : Decidable role.Ready :=
  inferInstanceAs (Decidable (role = .announcing ∨ role = .looking))

structure Handover (Thread : Type) where
  stock : Nat
  roles : Thread → Role

namespace Handover

variable {Thread : Type}

/-- A signal wakes at least one sleeper, if there is any. -/
structure Wakes (before after : Thread → Role) : Prop where
  woken : ∀ thread, after thread = before thread ∨ before thread = .asleep ∧ after thread = .looking
  someone : ∀ sleeper, before sleeper = .asleep →
    ∃ thread, before thread = .asleep ∧ after thread = .looking

variable [DecidableEq Thread]

inductive Step : Handover Thread → Handover Thread → Prop
  | stay (handover : Handover Thread) : Step handover handover
  | put {stock : Nat} {roles : Thread → Role} (thread : Thread) (was : roles thread = .away) :
      Step ⟨stock, roles⟩ ⟨stock + 1, Function.update roles thread .announcing⟩
  | signal {stock : Nat} {roles after : Thread → Role} (thread : Thread)
      (was : roles thread = .announcing) (wakes : Wakes (Function.update roles thread .away) after) :
      Step ⟨stock, roles⟩ ⟨stock, after⟩
  | look {stock : Nat} {roles : Thread → Role} (thread : Thread) (was : roles thread = .away) :
      Step ⟨stock, roles⟩ ⟨stock, Function.update roles thread .looking⟩
  | take {stock : Nat} {roles : Thread → Role} (thread : Thread) (was : roles thread = .looking) :
      Step ⟨stock + 1, roles⟩ ⟨stock, Function.update roles thread .away⟩
  | sleep {roles : Thread → Role} (thread : Thread) (was : roles thread = .looking) :
      Step ⟨0, roles⟩ ⟨0, Function.update roles thread .asleep⟩
  /-- A sleeper wakes up without a signal. -/
  | wake {stock : Nat} {roles : Thread → Role} (thread : Thread) (was : roles thread = .asleep) :
      Step ⟨stock, roles⟩ ⟨stock, Function.update roles thread .looking⟩
  /-- What was taken is put back by a thread that will look again. -/
  | putBack {stock : Nat} {roles : Thread → Role} (thread : Thread) (was : roles thread = .away) :
      Step ⟨stock, roles⟩ ⟨stock + 1, Function.update roles thread .looking⟩

variable [Fintype Thread]

def ready (roles : Thread → Role) : Finset Thread := Finset.univ.filter fun thread => (roles thread).Ready

/-- While somebody sleeps, everything in stock has a thread that is about to signal or to
look. -/
def Served (handover : Handover Thread) : Prop :=
  ∀ sleeper, handover.roles sleeper = .asleep → handover.stock ≤ (ready handover.roles).card

section Ready

variable {roles after : Thread → Role} {thread : Thread} {role old : Role}

omit [DecidableEq Thread] in
theorem mem_ready : thread ∈ ready roles ↔ (roles thread).Ready := by
  rw [ready, Finset.mem_filter, and_iff_right (Finset.mem_univ _)]

theorem ready_update_insert (becomes : role.Ready) :
    ready (Function.update roles thread role) = insert thread (ready roles) := by
  ext other
  rw [mem_ready, Finset.mem_insert, mem_ready]
  by_cases same : other = thread
  · simp [same, becomes]
  · simp [same]

theorem ready_update_erase (becomes : ¬ role.Ready) :
    ready (Function.update roles thread role) = (ready roles).erase thread := by
  ext other
  rw [mem_ready, Finset.mem_erase, mem_ready]
  by_cases same : other = thread
  · simp [same, becomes]
  · simp [same]

/-- There is one thread more that will do something. -/
theorem card_ready_insert (was : roles thread = old) (notReady : ¬ old.Ready) (becomes : role.Ready) :
    (ready (Function.update roles thread role)).card = (ready roles).card + 1 := by
  rw [ready_update_insert becomes, Finset.card_insert_of_notMem]
  rw [mem_ready, was]
  exact notReady

theorem card_ready_erase (was : roles thread = old) (isReady : old.Ready) (becomes : ¬ role.Ready) :
    (ready (Function.update roles thread role)).card + 1 = (ready roles).card := by
  rw [ready_update_erase becomes]
  apply Finset.card_erase_add_one
  rw [mem_ready, was]
  exact isReady

/-- Who signals is replaced by whom the signal wakes. -/
theorem Wakes.card_ready (wakes : Wakes roles after) {sleeper : Thread} (sleeps : roles sleeper = .asleep) :
    (ready roles).card + 1 ≤ (ready after).card := by
  rcases wakes.someone sleeper sleeps with ⟨woken, slept, looks⟩
  have notReady : woken ∉ ready roles := by
    rw [mem_ready, slept]
    simp [Role.Ready]
  rw [← Finset.card_insert_of_notMem notReady]
  apply Finset.card_le_card
  intro thread member
  rw [mem_ready]
  rcases Finset.mem_insert.mp member with rfl | isReady
  · rw [looks]
    exact Or.inr rfl
  · rcases wakes.woken thread with same | ⟨slept, _⟩
    · rw [same]
      exact mem_ready.mp isReady
    · rw [mem_ready, slept] at isReady
      simp [Role.Ready] at isReady

omit [DecidableEq Thread] [Fintype Thread] in
theorem Wakes.slept (wakes : Wakes roles after) (sleeps : after thread = .asleep) :
    roles thread = .asleep := by
  rcases wakes.woken thread with same | ⟨_, looks⟩
  · rw [← same, sleeps]
  · rw [sleeps] at looks
    cases looks

omit [Fintype Thread] in
theorem slept_of_update (awake : role ≠ .asleep) {sleeper : Thread}
    (sleeps : Function.update roles thread role sleeper = .asleep) : roles sleeper = .asleep := by
  by_cases same : sleeper = thread
  · rw [same, Function.update_self] at sleeps
    exact absurd sleeps awake
  · rwa [Function.update_of_ne same] at sleeps

end Ready

theorem Served.step {before after : Handover Thread} (served : Served before)
    (stepped : Step before after) : Served after := by
  intro sleeper sleeps
  cases stepped with
  | stay => exact served sleeper sleeps
  | @put stock roles thread was =>
      have enough := served sleeper (slept_of_update (by decide) sleeps)
      have more : (ready (Function.update roles thread .announcing)).card = (ready roles).card + 1 :=
        card_ready_insert was (by decide) (by decide)
      exact more ▸ Nat.succ_le_succ enough
  | @signal stock roles after thread was wakes =>
      have slept := wakes.slept sleeps
      have enough : stock ≤ (ready roles).card := served sleeper (slept_of_update (by decide) slept)
      have fewer : (ready (Function.update roles thread .away)).card + 1 = (ready roles).card :=
        card_ready_erase was (by decide) (by decide)
      exact (fewer ▸ enough).trans (wakes.card_ready slept)
  | @look stock roles thread was =>
      have enough := served sleeper (slept_of_update (by decide) sleeps)
      have more : (ready (Function.update roles thread .looking)).card = (ready roles).card + 1 :=
        card_ready_insert was (by decide) (by decide)
      exact more ▸ Nat.le_succ_of_le enough
  | @take stock roles thread was =>
      have enough : stock + 1 ≤ (ready roles).card :=
        served sleeper (slept_of_update (by decide) sleeps)
      have fewer : (ready (Function.update roles thread .away)).card + 1 = (ready roles).card :=
        card_ready_erase was (by decide) (by decide)
      rw [← fewer] at enough
      exact Nat.le_of_succ_le_succ enough
  | sleep => exact Nat.zero_le _
  | @wake stock roles thread was =>
      have enough := served thread was
      have more : (ready (Function.update roles thread .looking)).card = (ready roles).card + 1 :=
        card_ready_insert was (by decide) (by decide)
      exact more ▸ Nat.le_succ_of_le enough
  | @putBack stock roles thread was =>
      have enough := served sleeper (slept_of_update (by decide) sleeps)
      have more : (ready (Function.update roles thread .looking)).card = (ready roles).card + 1 :=
        card_ready_insert was (by decide) (by decide)
      exact more ▸ Nat.succ_le_succ enough

omit [DecidableEq Thread] in
/-- Where nobody is about to do anything, nobody sleeps in front of a stock. -/
theorem Served.someone_ready {handover : Handover Thread} (served : Served handover) {sleeper : Thread}
    (sleeps : handover.roles sleeper = .asleep) (some : 0 < handover.stock) :
    ∃ thread, (handover.roles thread).Ready := by
  have positive := Nat.lt_of_lt_of_le some (served sleeper sleeps)
  rcases Finset.card_pos.mp positive with ⟨thread, member⟩
  exact ⟨thread, mem_ready.mp member⟩

end Handover

end Apue.Foundation
