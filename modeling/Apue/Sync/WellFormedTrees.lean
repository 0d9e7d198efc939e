import Apue.Sync.Copying

/-! # Trees stay trees

Whatever the calls put into a tree is put into a directory, under a name that an entry
can have.
-/

namespace Apue.Foundation

open Ascii

theorem Path.noSlash_of_mem_components {path name : Bytes} (member : name ∈ components path) :
    SLASH ∉ name := by
  induction path using Path.by_last_slash generalizing name with
  | plain other noSlash =>
      rw [components_of_noSlash noSlash, List.mem_singleton] at member
      rw [member]
      exact noSlash
  | joined front other noSlash hypothesis =>
      rw [components_join, components_of_noSlash noSlash, List.mem_append, List.mem_singleton] at member
      rcases member with inFront | last
      · exact hypothesis inFront
      · rw [last]
        exact noSlash

namespace Files

variable {files : Files} {cwd place here : Place} {path name : Bytes}

/-- Where there is nothing, a path ends with a new name for an entry of a directory. -/
theorem WellFormed.resolve_absent (wellFormed : files.WellFormed)
    (resolved : files.resolve cwd path = some place) (absent : files place = none) :
    ∃ here name, place = here ++ [name] ∧ files.isDirectory here = true ∧ Path.Proper name := by
  have noDirectory : files.isDirectory place ≠ true := by
    rw [isDirectory, absent]
    exact Bool.false_ne_true
  rw [resolve] at resolved
  split at resolved
  · cases resolved
  generalize (if path.head? = some Path.SLASH then [] else cwd) = origin at resolved
  rcases List.eq_nil_or_concat (Path.components path) with none | ⟨names, name, isConcat⟩
  · exact absurd none (Path.components_ne_nil path)
  rw [List.concat_eq_append] at isConcat
  have noSlash : Path.SLASH ∉ name := Path.noSlash_of_mem_components (by rw [isConcat]; simp)
  rw [isConcat, walk_append, Option.bind_eq_some_iff] at resolved
  rcases resolved with ⟨here, _, walked⟩
  rw [walk] at walked
  split at walked
  · rename_i directory
    have isPlace : Path.step here name = place := Option.some.inj walked
    rw [Path.step] at isPlace
    split at isPlace
    · exact absurd (isPlace ▸ directory) noDirectory
    split at isPlace
    · exact absurd (isPlace ▸ wellFormed.dropLast directory) noDirectory
    · rename_i noDot noDotDot
      rw [not_or] at noDot
      exact ⟨here, name, isPlace.symm, directory, noDot.1, noSlash, noDot.2, noDotDot⟩
  · cases walked

end Files

end Apue.Foundation

namespace Apue.Sync

open Apue.Foundation

section Trees

variable {state after : SysState} {place : Place} {node : Node} {call : SysCall}
  {response : SysResponse call} {Value : Type} {program : Sys Value}
  {allowed : SysCall → SysState → Prop} {post : Value → SysState → Prop}

theorem SysState.isDirectory_setNode
    (keeps : state.files.isDirectory place = true → (nodeStat node).isDirectory = true) {other : Place}
    (directory : state.files.isDirectory other = true) :
    (state.setNode place node).files.isDirectory other = true := by
  by_cases same : other = place
  · subst same
    have isNode := keeps directory
    rw [Files.isDirectory, SysState.setNode_files_same]
    cases node with
    | directory size mtime => rfl
    | regular file => cases isNode
  · rw [Files.isDirectory, SysState.setNode_files_other _ same]
    exact directory

/-- A node in a directory, under a proper name. -/
theorem SysState.wellFormed_setNode (wellFormed : state.files.WellFormed)
    (keeps : state.files.isDirectory place = true → (nodeStat node).isDirectory = true)
    (grounded : ∀ here name, place = here ++ [name] →
      state.files.isDirectory here = true ∧ Path.Proper name) :
    (state.setNode place node).files.WellFormed := by
  have entry : ∀ here name, (state.setNode place node).files (here ++ [name]) ≠ none →
      state.files.isDirectory here = true ∧ Path.Proper name := by
    intro here name there
    by_cases same : here ++ [name] = place
    · exact grounded here name same.symm
    · rw [SysState.setNode_files_other _ same] at there
      exact ⟨wellFormed.parent here name there, wellFormed.proper here name there⟩
  exact
    { root := isDirectory_setNode keeps wellFormed.root
      parent := fun here name there => isDirectory_setNode keeps (entry here name there).1
      proper := fun here name there => (entry here name there).2 }

/-- A regular file that takes the place of another one. -/
theorem SysState.wellFormed_change {file : RegularFile} (wellFormed : state.files.WellFormed)
    (there : state.files place = some (.regular file)) (changed : RegularFile) :
    (state.setNode place (.regular changed)).files.WellFormed := by
  apply wellFormed_setNode wellFormed
  · intro directory
    rw [isDirectory_of_regular there] at directory
    cases directory
  · rintro here name rfl
    have isThere : state.files (here ++ [name]) ≠ none := by
      rw [there]
      exact Option.some_ne_none _
    exact ⟨wellFormed.parent here name isThere, wellFormed.proper here name isThere⟩

theorem SysState.wellFormed_new {path : Bytes} (wellFormed : state.files.WellFormed)
    (resolved : state.files.resolve state.cwd path = some place) (absent : state.files place = none) :
    (state.setNode place node).files.WellFormed := by
  rcases wellFormed.resolve_absent resolved absent with ⟨here, name, rfl, directory, proper⟩
  apply wellFormed_setNode wellFormed
  · intro isDirectory
    rw [Files.isDirectory, absent] at isDirectory
    cases isDirectory
  · intro other otherName same
    rcases List.append_inj' same rfl with ⟨rfl, sameName⟩
    cases sameName
    exact ⟨directory, proper⟩

/-- Every call leaves a tree. -/
theorem Answers.wellFormed (answered : Answers call state response after)
    (wellFormed : state.files.WellFormed) : after.files.WellFormed := by
  cases answered with
  | mkdir size mtime resolved absent => exact SysState.wellFormed_new wellFormed resolved absent
  | openExisting number now found =>
      exact SysState.wellFormed_change wellFormed (Files.lookup_eq_some.mp found).2 _
  | openNew number now resolved absent => exact SysState.wellFormed_new wellFormed resolved absent
  | write now found => exact SysState.wellFormed_change wellFormed found _
  | utimes mtime found =>
      exact SysState.wellFormed_change wellFormed (Files.lookup_eq_some.mp found).2 _
  | chmod mode found =>
      exact SysState.wellFormed_change wellFormed (Files.lookup_eq_some.mp found).2 _
  | _ => exact wellFormed

theorem always_wellFormed (always : program.Always Answers allowed post state)
    (wellFormed : state.files.WellFormed) :
    program.Always Answers allowed (fun result after => post result after ∧ after.files.WellFormed)
      state := by
  induction program generalizing state with
  | done result => exact ⟨always, wellFormed⟩
  | call call next hypothesis =>
      exact ⟨always.1, fun response after answered =>
        hypothesis response (always.2 response after answered) (answered.wellFormed wellFormed)⟩

theorem runs_wellFormed {result : Value} (run : program.Runs Answers state result after)
    (wellFormed : state.files.WellFormed) : after.files.WellFormed := by
  induction run with
  | done result state => exact wellFormed
  | call answered rest hypothesis => exact hypothesis (answered.wellFormed wellFormed)

end Trees

end Apue.Sync
