import Apue.Foundation.FileTree

/-! # Where a path string leads

Without links a path string leads to a place that depends on its names only, once
the directories on the way are there.
-/

namespace Apue.Foundation

open Ascii

namespace Path

/-- Where the names of a path string start. -/
def origin (cwd : Place) (path : Bytes) : Place :=
  if path.head? = some SLASH then [] else cwd

def destination (cwd : Place) (path : Bytes) : Place :=
  (components path).foldl step (origin cwd path)

/-- A path string is one name, or it has a last slash. -/
theorem by_last_slash {motive : Bytes → Prop}
    (plain : ∀ name, SLASH ∉ name → motive name)
    (joined : ∀ front name, SLASH ∉ name → motive front → motive (front ++ SLASH :: name))
    (path : Bytes) : motive path := by
  have general : ∀ name, SLASH ∉ name → motive (path ++ name) := by
    induction path using List.reverseRecOn with
    | nil => exact plain
    | append_singleton front byte hypothesis =>
        intro name noSlash
        rw [List.append_assoc, List.singleton_append]
        by_cases isSlash : byte = SLASH
        · subst isSlash
          have whole := hypothesis [] List.not_mem_nil
          rw [List.append_nil] at whole
          exact joined front name noSlash whole
        · apply hypothesis
          rw [List.mem_cons, not_or]
          exact ⟨Ne.symm isSlash, noSlash⟩
  have whole := general [] List.not_mem_nil
  rw [List.append_nil] at whole
  exact whole

variable {cwd : Place} {front back name path : Bytes}

theorem origin_join (nonempty : front ≠ []) :
    origin cwd (front ++ SLASH :: back) = origin cwd front := by
  cases front with
  | nil => exact absurd rfl nonempty
  | cons byte rest => rfl

theorem destination_join (nonempty : front ≠ []) :
    destination cwd (front ++ SLASH :: back) =
      (components back).foldl step (destination cwd front) := by
  rw [destination, components_join, List.foldl_append, origin_join nonempty]
  rfl

theorem destination_name (nonempty : front ≠ []) (noSlash : SLASH ∉ name) :
    destination cwd (front ++ SLASH :: name) = step (destination cwd front) name := by
  rw [destination_join nonempty, components_of_noSlash noSlash]
  rfl

theorem destination_below (nonempty : front ≠ []) {names : List Bytes}
    (proper : ∀ name ∈ names, Proper name) :
    destination cwd (front ++ below names) = destination cwd front ++ names := by
  induction names using List.reverseRecOn with
  | nil => simp
  | append_singleton names name hypothesis =>
      have properName := proper name (by simp)
      rw [below_concat, ← List.append_assoc,
        destination_name (List.append_ne_nil_of_left_ne_nil nonempty _) properName.noSlash,
        hypothesis fun other member => proper other (List.mem_append_left _ member),
        step_proper properName, List.append_assoc]

end Path

namespace Files

variable {files after : Files} {cwd here there : Place} {front back name path : Bytes}

theorem walk_eq {names : List Bytes} (walked : files.walk here names = some there) :
    there = names.foldl Path.step here := by
  induction names generalizing here with
  | nil => exact (Option.some.inj walked).symm
  | cons name names hypothesis =>
      rw [walk] at walked
      split at walked
      · exact hypothesis walked
      · cases walked

/-- A path leads to its destination or nowhere. -/
theorem resolve_eq (resolved : files.resolve cwd path = some there) :
    there = Path.destination cwd path := by
  rw [resolve] at resolved
  split at resolved
  · cases resolved
  · exact walk_eq resolved

/-- A continued path leads through what its front leads to. -/
theorem resolve_front (nonempty : front ≠ []) :
    files.resolve cwd (front ++ Path.SLASH :: back) =
      (files.resolve cwd front).bind fun here => files.walk here (Path.components back) := by
  rw [resolve, if_neg (by simp), Path.components_join, walk_append, resolve, if_neg nonempty]
  change (files.walk (Path.origin cwd _) _).bind _ = (files.walk (Path.origin cwd _) _).bind _
  rw [Path.origin_join nonempty]

theorem front_of_resolve (nonempty : front ≠ [])
    (resolved : files.resolve cwd (front ++ Path.SLASH :: back) = some there) :
    files.LeadsToDirectory cwd front (Path.destination cwd front) := by
  rw [resolve_front nonempty, Option.bind_eq_some_iff] at resolved
  rcases resolved with ⟨here, leads, walked⟩
  have same := resolve_eq leads
  subst same
  refine ⟨leads, ?_⟩
  cases names : Path.components back with
  | nil => exact absurd names (Path.components_ne_nil back)
  | cons name names' =>
      rw [names, walk] at walked
      split at walked
      · assumption
      · cases walked

/-- A path that starts at the root. -/
theorem resolve_root (root : files.isDirectory [] = true) (noSlash : Path.SLASH ∉ name) :
    files.resolve cwd (Path.SLASH :: name) = some (Path.step [] name) := by
  have names : Path.components (Path.SLASH :: name) = [[], name] := by
    rw [Path.components, if_pos rfl, Path.components_of_noSlash noSlash]
  rw [resolve, if_neg (List.cons_ne_nil _ _), names, List.head?_cons, if_pos rfl, walk,
    if_pos root]
  change files.walk [] [name] = _
  rw [walk, if_pos root]
  rfl

theorem resolve_plain (directory : files.isDirectory cwd = true) (nonempty : name ≠ [])
    (noSlash : Path.SLASH ∉ name) : files.resolve cwd name = some (Path.step cwd name) := by
  have notHead : name.head? ≠ some Path.SLASH := by
    cases name with
    | nil => exact absurd rfl nonempty
    | cons byte rest =>
        intro same
        cases same
        exact noSlash List.mem_cons_self
  rw [resolve, if_neg nonempty, if_neg notHead, Path.components_of_noSlash noSlash, walk,
    if_pos directory]
  rfl

/-- What a path leads to depends on the directories only. -/
theorem walk_congr (same : ∀ place, after.isDirectory place = files.isDirectory place)
    (here : Place) (names : List Bytes) : after.walk here names = files.walk here names := by
  induction names generalizing here with
  | nil => rfl
  | cons name names hypothesis => rw [walk, walk, same, hypothesis]

theorem resolve_congr (same : ∀ place, after.isDirectory place = files.isDirectory place)
    (cwd : Place) (path : Bytes) : after.resolve cwd path = files.resolve cwd path := by
  rw [resolve, resolve, walk_congr same]

end Files

end Apue.Foundation
