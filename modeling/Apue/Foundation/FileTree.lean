import Apue.Foundation.Ascii
import Mathlib.Data.Set.Finite.Basic
import Mathlib.Logic.Function.Basic

/-! # Path strings and directory trees

A file system without links is a map from places to nodes, a place being the
names on the way from the root. A path string is read name by name, and every
name but the last one has to lead to a directory.
-/

namespace Apue.Foundation

open Ascii

abbrev Place := List Bytes

namespace Path

def SLASH : Byte := 47

def DOT : Bytes := [46]

def DOTDOT : Bytes := [46, 46]

/-- The names of a path string. There are empty names at slashes that follow one
another, and at the ends. -/
def components : Bytes → List Bytes
  | [] => [[]]
  | byte :: rest =>
      if byte = SLASH then [] :: components rest
      else match components rest with
        | [] => [[byte]]
        | name :: names => (byte :: name) :: names

theorem components_ne_nil (path : Bytes) : components path ≠ [] := by
  induction path with
  | nil => exact List.cons_ne_nil _ _
  | cons byte rest hypothesis =>
      rw [components]
      split
      · exact List.cons_ne_nil _ _
      · split
        · exact List.cons_ne_nil _ _
        · exact List.cons_ne_nil _ _

/-- The names of a joined path are those of its parts. -/
theorem components_join (front back : Bytes) :
    components (front ++ SLASH :: back) = components front ++ components back := by
  induction front with
  | nil => simp [components]
  | cons byte front hypothesis =>
      rw [List.cons_append, components, components, hypothesis]
      split
      · rfl
      · cases names : components front with
        | nil => exact absurd names (components_ne_nil front)
        | cons name names => rfl

theorem components_of_noSlash {name : Bytes} (noSlash : SLASH ∉ name) :
    components name = [name] := by
  induction name with
  | nil => rfl
  | cons byte rest hypothesis =>
      rw [List.mem_cons, not_or] at noSlash
      rw [components, if_neg (Ne.symm noSlash.1), hypothesis noSlash.2]

/-- A name that an entry of a directory can have. -/
structure Proper (name : Bytes) : Prop where
  nonempty : name ≠ []
  noSlash : SLASH ∉ name
  noDot : name ≠ DOT
  noDotDot : name ≠ DOTDOT

instance (name : Bytes) : Decidable (Proper name) :=
  decidable_of_iff (name ≠ [] ∧ SLASH ∉ name ∧ name ≠ DOT ∧ name ≠ DOTDOT)
    ⟨fun proper => ⟨proper.1, proper.2.1, proper.2.2.1, proper.2.2.2⟩,
      fun proper => ⟨proper.nonempty, proper.noSlash, proper.noDot, proper.noDotDot⟩⟩

/-- Where a name leads from a directory. -/
def step (here : Place) (name : Bytes) : Place :=
  if name = [] ∨ name = DOT then here
  else if name = DOTDOT then here.dropLast
  else here ++ [name]

theorem step_proper {name : Bytes} (proper : Proper name) (here : Place) :
    step here name = here ++ [name] := by
  rw [step, if_neg, if_neg proper.noDotDot]
  rintro (empty | dot)
  · exact proper.nonempty empty
  · exact proper.noDot dot

/-- The string of the names below a directory. -/
def below (names : List Bytes) : Bytes := names.flatMap fun name => SLASH :: name

@[simp] theorem below_nil : below [] = [] := rfl

theorem below_concat (names : List Bytes) (name : Bytes) :
    below (names ++ [name]) = below names ++ SLASH :: name := by
  simp [below]

theorem components_below (front : Bytes) {names : List Bytes}
    (noSlash : ∀ name ∈ names, SLASH ∉ name) :
    components (front ++ below names) = components front ++ names := by
  induction names using List.reverseRecOn with
  | nil => simp
  | append_singleton names name hypothesis =>
      have named := components_of_noSlash (noSlash name (by simp))
      rw [below_concat, ← List.append_assoc, components_join, named,
        hypothesis (fun other member => noSlash other (List.mem_append_left _ member)),
        List.append_assoc]

/-- Different names are different strings. -/
theorem below_injective {names others : List Bytes} (noSlash : ∀ name ∈ names, SLASH ∉ name)
    (noSlashOthers : ∀ name ∈ others, SLASH ∉ name) (same : below names = below others) :
    names = others := by
  have parts := components_below [] noSlash
  rw [same, components_below [] noSlashOthers] at parts
  exact (List.append_cancel_left parts).symm

end Path

/-! ## Trees -/

structure RegularFile where
  data : Bytes
  mtime : Int
  mode : Nat

/-- A directory has a size and a time of its own, which are only looked at where
nothing is put into it, so that they never change here. -/
inductive Node
  | directory (size : Nat) (mtime : Int)
  | regular (file : RegularFile)

abbrev Files := Place → Option Node

namespace Files

variable (files : Files)

def isDirectory (place : Place) : Bool :=
  match files place with
  | some (.directory _ _) => true
  | _ => false

/-- The place that some names lead to from a directory, whether there is
something or not. -/
def walk : Place → List Bytes → Option Place
  | here, [] => some here
  | here, name :: names =>
      if files.isDirectory here then walk (Path.step here name) names else none

/-- The place that a path string leads to. -/
def resolve (cwd : Place) (path : Bytes) : Option Place :=
  if path = [] then none
  else files.walk (if path.head? = some Path.SLASH then [] else cwd) (Path.components path)

/-- What a path string leads to. -/
def lookup (cwd : Place) (path : Bytes) : Option (Place × Node) :=
  (files.resolve cwd path).bind fun place => (files place).map (place, ·)

/-- What is in a directory; `readdir` also returns the names for the directory
itself and its parent. -/
structure Lists (place : Place) (names : List Bytes) : Prop where
  nodup : names.Nodup
  mem_iff : ∀ name, name ∈ names ↔
    name = Path.DOT ∨ name = Path.DOTDOT ∨ files (place ++ [name]) ≠ none

/-- Everything is in a directory and has a name that an entry can have. -/
structure WellFormed : Prop where
  root : files.isDirectory [] = true
  parent : ∀ place name, files (place ++ [name]) ≠ none → files.isDirectory place = true
  proper : ∀ place name, files (place ++ [name]) ≠ none → Path.Proper name

variable {files}

theorem isDirectory_iff {place : Place} :
    files.isDirectory place = true ↔ ∃ size mtime, files place = some (.directory size mtime) := by
  rw [isDirectory]
  cases files place with
  | none => simp
  | some node =>
      cases node with
      | directory size mtime => simp
      | regular file => simp

theorem lookup_eq_some {cwd place : Place} {path : Bytes} {node : Node} :
    files.lookup cwd path = some (place, node) ↔
      files.resolve cwd path = some place ∧ files place = some node := by
  simp only [lookup, Option.bind_eq_some_iff, Option.map_eq_some_iff, Prod.mk.injEq]
  constructor
  · rintro ⟨found, resolved, node', there, rfl, rfl⟩
    exact ⟨resolved, there⟩
  · rintro ⟨resolved, there⟩
    exact ⟨place, resolved, node, there, rfl, rfl⟩

/-- A path string leads to a directory. -/
def LeadsToDirectory (files : Files) (cwd : Place) (path : Bytes) (place : Place) : Prop :=
  files.resolve cwd path = some place ∧ files.isDirectory place = true

/-- As long as directories stay, names lead where they led. -/
theorem walk_mono {after : Files}
    (directories : ∀ place, files.isDirectory place = true → after.isDirectory place = true)
    {here there : Place} {names : List Bytes} (walked : files.walk here names = some there) :
    after.walk here names = some there := by
  induction names generalizing here with
  | nil => exact walked
  | cons name names hypothesis =>
      rw [walk] at walked ⊢
      split at walked
      · rename_i directory
        rw [if_pos (directories here directory)]
        exact hypothesis walked
      · cases walked

theorem resolve_mono {after : Files}
    (directories : ∀ place, files.isDirectory place = true → after.isDirectory place = true)
    {cwd there : Place} {path : Bytes} (resolved : files.resolve cwd path = some there) :
    after.resolve cwd path = some there := by
  rw [resolve] at resolved ⊢
  split at resolved
  · cases resolved
  · rename_i nonempty
    rw [if_neg nonempty]
    exact walk_mono directories resolved

/-- A tree with finitely many places is checked place by place. -/
theorem wellFormed_of_places {places : List Place}
    (covers : ∀ place, files place ≠ none → place ∈ places)
    (root : files.isDirectory [] = true)
    (parents : ∀ place ∈ places, files.isDirectory place.dropLast = true)
    (names : ∀ place ∈ places, ∀ name ∈ place.getLast?, Path.Proper name) : files.WellFormed where
  root := root
  parent := by
    intro place name there
    have parent := parents _ (covers _ there)
    rw [List.dropLast_concat] at parent
    exact parent
  proper := by
    intro place name there
    exact names _ (covers _ there) name List.getLast?_concat

theorem finite_of_places {places : List Place}
    (covers : ∀ place, files place ≠ none → place ∈ places) : {there | files there ≠ none}.Finite :=
  places.finite_toSet.subset covers

theorem WellFormed.dropLast (wellFormed : files.WellFormed) {place : Place}
    (directory : files.isDirectory place = true) : files.isDirectory place.dropLast = true := by
  rcases List.eq_nil_or_concat place with rfl | ⟨front, name, rfl⟩
  · exact directory
  · rw [List.concat_eq_append, List.dropLast_concat]
    apply wellFormed.parent front name
    rcases isDirectory_iff.mp directory with ⟨size, mtime, there⟩
    rw [← List.concat_eq_append, there]
    exact Option.some_ne_none _

/-- What is above something in a tree has proper names. -/
theorem WellFormed.names_proper (wellFormed : files.WellFormed) {place : Place} {names : List Bytes}
    (there : files (place ++ names) ≠ none) : ∀ name ∈ names, Path.Proper name := by
  induction names using List.reverseRecOn with
  | nil => exact fun _ member => absurd member (List.not_mem_nil)
  | append_singleton names name hypothesis =>
      rw [← List.append_assoc] at there
      rcases isDirectory_iff.mp (wellFormed.parent _ _ there) with ⟨size, mtime, parent⟩
      have properFront := hypothesis (by rw [parent]; exact Option.some_ne_none _)
      intro other member
      rcases List.mem_append.mp member with front | last
      · exact properFront other front
      · rw [List.mem_singleton.mp last]
        exact wellFormed.proper _ _ there

theorem WellFormed.isDirectory_above (wellFormed : files.WellFormed) {place : Place}
    {names : List Bytes} (nonempty : names ≠ []) (there : files (place ++ names) ≠ none) :
    files.isDirectory place = true := by
  induction names using List.reverseRecOn with
  | nil => exact absurd rfl nonempty
  | append_singleton names name hypothesis =>
      rw [← List.append_assoc] at there
      have parent := wellFormed.parent _ _ there
      rcases eq_or_ne names [] with rfl | more
      · rw [List.append_nil] at parent
        exact parent
      · rcases isDirectory_iff.mp parent with ⟨size, mtime, found⟩
        apply hypothesis more
        rw [found]
        exact Option.some_ne_none _

theorem walk_append (here : Place) (names more : List Bytes) :
    files.walk here (names ++ more) = (files.walk here names).bind fun there =>
      files.walk there more := by
  induction names generalizing here with
  | nil => rfl
  | cons name names hypothesis =>
      rw [List.cons_append, walk, walk]
      split
      · exact hypothesis _
      · rfl

/-- A path that is continued is read from where the first part leads. -/
theorem resolve_join {cwd here : Place} {path : Bytes} (back : Bytes)
    (resolved : files.resolve cwd path = some here) :
    files.resolve cwd (path ++ Path.SLASH :: back) = files.walk here (Path.components back) := by
  rw [resolve] at resolved ⊢
  split at resolved
  · cases resolved
  · rename_i nonempty
    have sameHead : (path ++ Path.SLASH :: back).head? = path.head? := by
      cases path with
      | nil => exact absurd rfl nonempty
      | cons byte rest => rfl
    rw [if_neg (by simp), sameHead, Path.components_join, walk_append, resolved]
    rfl

theorem resolve_name {cwd here : Place} {path name : Bytes}
    (resolved : files.resolve cwd path = some here) (directory : files.isDirectory here = true)
    (noSlash : Path.SLASH ∉ name) :
    files.resolve cwd (path ++ Path.SLASH :: name) = some (Path.step here name) := by
  rw [resolve_join name resolved, Path.components_of_noSlash noSlash, walk, if_pos directory]
  rfl

/-- The string for something in a tree leads there. -/
theorem resolve_below (wellFormed : files.WellFormed) {cwd root : Place} {path : Bytes}
    (resolved : files.resolve cwd path = some root) {names : List Bytes}
    (there : files (root ++ names) ≠ none) :
    files.resolve cwd (path ++ Path.below names) = some (root ++ names) := by
  induction names using List.reverseRecOn with
  | nil => simpa using resolved
  | append_singleton names name hypothesis =>
      rw [← List.append_assoc] at there
      have parent := wellFormed.parent _ _ there
      have proper := wellFormed.proper _ _ there
      have parentThere : files (root ++ names) ≠ none := by
        rcases isDirectory_iff.mp parent with ⟨size, mtime, found⟩
        rw [found]
        simp
      rw [Path.below_concat, ← List.append_assoc,
        resolve_name (hypothesis parentThere) parent proper.noSlash, Path.step_proper proper,
        List.append_assoc]

end Files

end Apue.Foundation
