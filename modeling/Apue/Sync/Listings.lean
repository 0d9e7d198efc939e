import Apue.Sync.MakingDirectories
import Apue.Sync.Traversals

/-! # What a traversal lists

`traverse_directory` puts every regular file below a directory on the list, once, in
whatever order `readdir` returns the entries. Nothing changes meanwhile.
-/

namespace Apue.Sync

open Apue.Foundation

/-- What holds of every run, in which every call has an answer if that is asked for. -/
abbrev Throughout (total : Prop) {Value : Type} (post : Value → SysState → Prop)
    (program : Sys Value) (state : SysState) : Prop :=
  program.Always Answers
    (fun call between => total → ∃ response after, Answers call between response after) post state

/-- A directory whose entries are found by their paths, and the joined paths fit. -/
structure SourceTree (state : SysState) (sourceDir : Bytes) (source : Place) : Prop where
  directory : state.files.isDirectory source = true
  found : ∀ names node, state.files (source ++ names) = some node →
    state.lookup (sourceDir ++ Path.below names) = some (source ++ names, node)
  above : ∀ names more, more ≠ [] → state.files (source ++ (names ++ more)) ≠ none →
    state.files.isDirectory (source ++ names) = true
  proper : ∀ names, state.files (source ++ names) ≠ none → ∀ name ∈ names, Path.Proper name
  fits : ∀ names, names ≠ [] → state.files (source ++ names) ≠ none →
    (sourceDir ++ Path.below names).length ≤ JOIN_LIMIT

/-- There is a regular file below the source. -/
def RegularAt (state : SysState) (source : Place) (names : List Bytes) : Prop :=
  ∃ file, state.files (source ++ names) = some (.regular file)

section Tree

variable {state after : SysState} {sourceDir : Bytes} {source : Place} {names more : List Bytes}
  {total : Prop} {Acc : Type}

theorem SourceTree.of_wellFormed (wellFormed : state.files.WellFormed)
    (leads : state.files.LeadsToDirectory state.cwd sourceDir source)
    (fits : ∀ names, names ≠ [] → state.files (source ++ names) ≠ none →
      (sourceDir ++ Path.below names).length ≤ JOIN_LIMIT) : SourceTree state sourceDir source where
  directory := leads.2
  found := by
    intro names node there
    have some : state.files (source ++ names) ≠ none := by
      rw [there]
      exact Option.some_ne_none _
    exact Files.lookup_eq_some.mpr ⟨Files.resolve_below wellFormed leads.1 some, there⟩
  above := by
    intro names more nonempty there
    rw [← List.append_assoc] at there
    exact wellFormed.isDirectory_above nonempty there
  proper := fun _ there => wellFormed.names_proper there
  fits := fits

/-- What happens elsewhere leaves the source what it is. -/
theorem SourceTree.kept (tree : SourceTree state sourceDir source) (sameCwd : after.cwd = state.cwd)
    (directories : ∀ place, state.files.isDirectory place = true → after.files.isDirectory place = true)
    (same : ∀ names, after.files (source ++ names) = state.files (source ++ names)) :
    SourceTree after sourceDir source where
  directory := directories source tree.directory
  found := by
    intro names node there
    rcases Files.lookup_eq_some.mp (tree.found names node (same names ▸ there)) with ⟨resolved, _⟩
    apply Files.lookup_eq_some.mpr
    rw [sameCwd]
    exact ⟨Files.resolve_mono directories resolved, there⟩
  above := by
    intro names more nonempty there
    rw [same] at there
    exact directories _ (tree.above names more nonempty there)
  proper := by
    intro names there
    rw [same] at there
    exact tree.proper names there
  fits := by
    intro names nonempty there
    rw [same] at there
    exact tree.fits names nonempty there

theorem SourceTree.there_above (tree : SourceTree state sourceDir source)
    (there : state.files (source ++ (names ++ more)) ≠ none) :
    state.files (source ++ names) ≠ none := by
  rcases eq_or_ne more [] with rfl | nonempty
  · rw [List.append_nil] at there
    exact there
  · rcases Files.isDirectory_iff.mp (tree.above names more nonempty there) with ⟨size, mtime, found⟩
    rw [found]
    exact Option.some_ne_none _

/-- There is nothing below a file. -/
theorem SourceTree.below_file (tree : SourceTree state sourceDir source) (isFile : RegularAt state source names)
    (there : state.files (source ++ (names ++ more)) ≠ none) : more = [] := by
  by_contra nonempty
  rcases isFile with ⟨file, found⟩
  have directory := tree.above names more nonempty there
  rw [Files.isDirectory, found] at directory
  cases directory

theorem joinPath_below {directory name : Bytes}
    (fits : (directory ++ Path.below (names ++ [name])).length ≤ JOIN_LIMIT) :
    joinPath JOIN_LIMIT (directory ++ Path.below names) name =
      directory ++ Path.below (names ++ [name]) := by
  rw [Path.below_concat, ← List.append_assoc] at fits ⊢
  exact List.take_of_length_le fits

theorem SourceTree.joinPath (tree : SourceTree state sourceDir source) {name : Bytes}
    (there : state.files (source ++ (names ++ [name])) ≠ none) :
    joinPath JOIN_LIMIT (sourceDir ++ Path.below names) name =
      sourceDir ++ Path.below (names ++ [name]) :=
  joinPath_below (tree.fits (names ++ [name]) (by simp) there)

/-! ## The entries of a directory -/

/-- The entries can be read, each of them once. -/
theorem SourceTree.readDirectory (tree : SourceTree state sourceDir source)
    (isDirectory : state.files.isDirectory (source ++ names) = true)
    (finite : total → {names | state.files (source ++ names) ≠ none}.Finite)
    {rest : Option (List Bytes) → Sys Acc} {post : Acc → SysState → Prop}
    (lists : ∀ entries, state.files.Lists (source ++ names) entries →
      Throughout total post (rest (some entries)) state) :
    Throughout total post (Sys.readDirectory (sourceDir ++ Path.below names) >>= rest) state := by
  rcases Files.isDirectory_iff.mp isDirectory with ⟨size, mtime, there⟩
  have found := tree.found names _ there
  apply Program.Always.call
  · intro isTotal
    have entries : {name | state.files (source ++ names ++ [name]) ≠ none}.Finite := by
      apply ((finite isTotal).preimage (f := fun name => names ++ [name]) _).subset
      · intro name isThere
        rw [Set.mem_preimage, Set.mem_ofPred_eq, ← List.append_assoc]
        exact isThere
      · intro first _ second _ same
        simpa using same
    rcases ((Set.toFinite {Path.DOT, Path.DOTDOT}).union entries).exists_finset with ⟨all, mem_iff⟩
    refine ⟨_, _, .readDirectory found ⟨all.nodup_toList, fun name => ?_⟩⟩
    rw [Finset.mem_toList, mem_iff]
    simp only [Set.mem_union, Set.mem_insert_iff, Set.mem_ofPred_eq, Set.mem_singleton_iff, or_assoc]
  · intro listed after answered
    cases answered with
    | noDirectory missing => exact absurd found (missing _ _ _)
    | readDirectory isThere isListed =>
        rw [found] at isThere
        cases isThere
        exact lists _ isListed

theorem isDirectory_throughout {path : Bytes} {place : Place} {node : Node}
    {rest : Bool → Sys Acc} {post : Acc → SysState → Prop}
    (found : state.lookup path = some (place, node))
    (continued : Throughout total post (rest (nodeStat node).isDirectory) state) :
    Throughout total post (isDirectory path >>= rest) state := by
  rw [isDirectory, bind_assoc]
  apply Program.Always.call fun _ => ⟨_, _, .stat path state⟩
  intro response after answered
  rcases answers_stat answered with ⟨rfl, rfl⟩
  rw [statOf_of_lookup found]
  exact continued

/-- What a recursion does with an entry, which is a directory, a file, or the directory
itself or its parent. -/
theorem SourceTree.entryBody (tree : SourceTree state sourceDir source) {name : Bytes}
    {recurse leaf : Bytes → Acc → Sys Acc} {acc : Acc} {post : Acc → SysState → Prop}
    (entry : name = Path.DOT ∨ name = Path.DOTDOT ∨ state.files (source ++ (names ++ [name])) ≠ none)
    (skips : name = Path.DOT ∨ name = Path.DOTDOT → post acc state)
    (inner : state.files.isDirectory (source ++ (names ++ [name])) = true →
      Throughout total post (recurse name acc) state)
    (file : RegularAt state source (names ++ [name]) → Throughout total post (leaf name acc) state) :
    Throughout total post
      (entryBody JOIN_LIMIT (sourceDir ++ Path.below names) recurse leaf acc name) state := by
  rw [Apue.Sync.entryBody]
  split
  · rename_i dots
    exact skips dots
  rename_i noDots
  rw [not_or] at noDots
  have there := (entry.resolve_left noDots.1).resolve_left noDots.2
  rcases Option.ne_none_iff_exists'.mp there with ⟨node, isThere⟩
  rw [tree.joinPath there]
  apply isDirectory_throughout (tree.found _ _ isThere)
  cases node with
  | directory size mtime =>
      apply Program.Always.call fun _ => ⟨_, _, .descend _ _ state⟩
      intro _ after answered
      cases answered
      exact inner (Files.isDirectory_iff.mpr ⟨size, mtime, isThere⟩)
  | regular copy => exact file ⟨copy, isThere⟩

/-! ## The files that are listed -/

/-- Every regular file below a directory, once. -/
structure ListsFiles (state : SysState) (source : Place) (names : List Bytes)
    (listed : List (List Bytes)) : Prop where
  nodup : listed.Nodup
  mem_iff : ∀ other, other ∈ listed ↔ names <+: other ∧ RegularAt state source other

theorem ListsFiles.file (tree : SourceTree state sourceDir source) (isFile : RegularAt state source names) :
    ListsFiles state source names [names] where
  nodup := List.nodup_singleton names
  mem_iff := by
    intro other
    rw [List.mem_singleton]
    constructor
    · rintro rfl
      exact ⟨List.prefix_refl _, isFile⟩
    · rintro ⟨⟨rest, rfl⟩, copy, found⟩
      have there : state.files (source ++ (names ++ rest)) ≠ none := by
        rw [found]
        exact Option.some_ne_none _
      have nothing := tree.below_file isFile there
      rw [nothing, List.append_nil]

theorem ListsFiles.dots (tree : SourceTree state sourceDir source) {name : Bytes}
    (isDots : name = Path.DOT ∨ name = Path.DOTDOT) : ListsFiles state source (names ++ [name]) [] where
  nodup := List.nodup_nil
  mem_iff := by
    intro other
    constructor
    · exact fun member => absurd member List.not_mem_nil
    · rintro ⟨⟨rest, rfl⟩, copy, found⟩
      have proper := tree.proper _ (by rw [found]; exact Option.some_ne_none _) name (by simp)
      rcases isDots with dot | dotDot
      · exact absurd dot proper.noDot
      · exact absurd dotDot proper.noDotDot

/-- What the entries list together. -/
theorem ListsFiles.entries {entries : List Bytes} {parts : List (List (List Bytes))}
    (nodup : entries.Nodup)
    (each : List.Forall₂ (fun name => ListsFiles state source (names ++ [name])) entries parts) :
    parts.flatten.Nodup ∧ ∀ other, other ∈ parts.flatten ↔
      (∃ name ∈ entries, names ++ [name] <+: other) ∧ RegularAt state source other := by
  induction each with
  | nil =>
      refine ⟨List.nodup_nil, fun other => ⟨fun member => absurd member List.not_mem_nil, ?_⟩⟩
      rintro ⟨⟨name, member, _⟩, _⟩
      exact absurd member List.not_mem_nil
  | @cons name part entries parts first rest hypothesis =>
      rw [List.nodup_cons] at nodup
      rcases hypothesis nodup.2 with ⟨nodupRest, memRest⟩
      constructor
      · rw [List.flatten_cons, List.nodup_append']
        refine ⟨first.nodup, nodupRest, fun other inFirst inRest => ?_⟩
        rcases (first.mem_iff other).mp inFirst with ⟨isPrefix, _⟩
        rcases (memRest other).mp inRest with ⟨⟨another, member, isPrefixOther⟩, _⟩
        have same := List.prefix_of_prefix_length_le isPrefix isPrefixOther (by simp)
        have sameLast := same.eq_of_length (by simp)
        have sameName : name = another := by simpa using sameLast
        exact nodup.1 (sameName ▸ member)
      · intro other
        rw [List.flatten_cons, List.mem_append, first.mem_iff, memRest, ← or_and_right]
        simp only [List.mem_cons, exists_eq_or_imp]

/-- A directory lists what its entries list. -/
theorem ListsFiles.directory {entries : List Bytes} {parts : List (List (List Bytes))}
    (tree : SourceTree state sourceDir source)
    (isDirectory : state.files.isDirectory (source ++ names) = true)
    (lists : state.files.Lists (source ++ names) entries)
    (each : List.Forall₂ (fun name => ListsFiles state source (names ++ [name])) entries parts) :
    ListsFiles state source names parts.flatten where
  nodup := (ListsFiles.entries lists.nodup each).1
  mem_iff := by
    intro other
    rw [(ListsFiles.entries lists.nodup each).2]
    constructor
    · rintro ⟨⟨name, _, isPrefix⟩, isFile⟩
      exact ⟨(List.prefix_append _ _).trans isPrefix, isFile⟩
    · rintro ⟨⟨rest, rfl⟩, copy, found⟩
      refine ⟨?_, copy, found⟩
      cases rest with
      | nil =>
          rw [List.append_nil] at found
          rw [Files.isDirectory, found] at isDirectory
          cases isDirectory
      | cons name rest =>
          refine ⟨name, (lists.mem_iff name).mpr (Or.inr (Or.inr ?_)), rest, by simp⟩
          have deeper : state.files (source ++ (names ++ [name] ++ rest)) ≠ none := by
            rw [List.append_assoc, List.singleton_append, found]
            exact Option.some_ne_none _
          rw [List.append_assoc]
          exact tree.there_above deeper

/-! ## A recursion that collects -/

/-- A loop whose rounds add some files each. -/
theorem foldlM_collects {body : Acc → Bytes → Sys Acc} {add : Acc → List Bytes → Acc}
    {collects : Bytes → List (List Bytes) → Prop} {entries : List Bytes}
    (each : ∀ name ∈ entries, ∀ acc, Throughout total (fun result after => after = state ∧
      ∃ listed, collects name listed ∧ result = listed.foldl add acc) (body acc name) state)
    (acc : Acc) : Throughout total (fun result after => after = state ∧
      ∃ parts, List.Forall₂ collects entries parts ∧ result = parts.flatten.foldl add acc)
      (entries.foldlM body acc) state := by
  induction entries generalizing acc with
  | nil => exact ⟨rfl, [], .nil, rfl⟩
  | cons name entries hypothesis =>
      rw [List.foldlM_cons]
      apply Program.Always.bind
      apply (each name List.mem_cons_self acc).mono
      rintro between after ⟨rfl, part, collected, rfl⟩
      apply (hypothesis (fun other member => each other (List.mem_cons_of_mem _ member)) _).mono
      rintro result last ⟨rfl, parts, collectedRest, rfl⟩
      refine ⟨rfl, part :: parts, .cons collected collectedRest, ?_⟩
      rw [List.flatten_cons, List.foldl_append]

/-- A recursion that adds the files that it comes to and changes nothing lists every file
once. -/
theorem LoopRecursion.collects {hands : Bool} {Arg : Type} {targetDir : Bytes → Arg → Bytes}
    {program : Nat → Bytes → Arg → Sys Acc}
    (recursion : LoopRecursion hands JOIN_LIMIT targetDir program)
    (tree : SourceTree state sourceDir source)
    (finite : total → {names | state.files (source ++ names) ≠ none}.Finite)
    (stands : List Bytes → Arg → Prop) (add : Acc → List Bytes → Acc)
    (prelude : ∀ path arg, recursion.prelude path arg = pure ())
    (innerStands : ∀ names name arg acc, state.files (source ++ (names ++ [name])) ≠ none →
      stands names arg → stands (names ++ [name]) (recursion.inner arg name acc) ∧
        recursion.initial (recursion.inner arg name acc) = acc)
    (leaf : ∀ names name arg acc, RegularAt state source (names ++ [name]) → stands names arg →
      Throughout total (fun result after => after = state ∧ result = add acc (names ++ [name]))
        (recursion.leaf (sourceDir ++ Path.below names) arg name acc) state)
    {rounds : Nat} {arg : Arg} (isDirectory : state.files.isDirectory (source ++ names) = true)
    (enough : total → ∀ more, state.files (source ++ (names ++ more)) ≠ none → more.length < rounds)
    (here : stands names arg) :
    Throughout total (fun result after => after = state ∧ ∃ listed,
        ListsFiles state source names listed ∧ result = listed.foldl add (recursion.initial arg))
      (program rounds (sourceDir ++ Path.below names) arg) state := by
  induction rounds generalizing names arg with
  | zero =>
      rw [recursion.stops]
      refine ⟨fun isTotal => ?_, fun never => never.elim⟩
      rcases Files.isDirectory_iff.mp isDirectory with ⟨size, mtime, there⟩
      have none := enough isTotal [] (by rw [List.append_nil, there]; exact Option.some_ne_none _)
      exact absurd none (Nat.not_lt_zero _)
  | succ rounds hypothesis =>
      rw [recursion.goes]
      apply tree.readDirectory isDirectory finite
      intro entries lists
      dsimp only
      rw [prelude]
      apply (foldlM_collects _ _).mono
      · rintro result after ⟨rfl, parts, each, rfl⟩
        exact ⟨rfl, parts.flatten, .directory tree isDirectory lists each, rfl⟩
      intro name member acc
      have entry := (lists.mem_iff name).mp member
      rw [List.append_assoc] at entry
      apply tree.entryBody entry
      · exact fun dots => ⟨rfl, [], .dots tree dots, rfl⟩
      · intro innerDirectory
        rcases Files.isDirectory_iff.mp innerDirectory with ⟨size, mtime, isThere⟩
        have there : state.files (source ++ (names ++ [name])) ≠ none := by
          rw [isThere]
          exact Option.some_ne_none _
        rcases innerStands names name arg acc there here with ⟨hereInner, initial⟩
        rw [tree.joinPath there]
        have inside := hypothesis innerDirectory (by
          intro isTotal more isMore
          have deep := enough isTotal (name :: more) (by
            rw [List.append_assoc, List.singleton_append] at isMore
            exact isMore)
          rw [List.length_cons] at deep
          omega) hereInner
        rw [initial] at inside
        exact inside
      · intro isFile
        have added : Throughout total (fun result after => after = state ∧ ∃ listed,
            ListsFiles state source (names ++ [name]) listed ∧ result = listed.foldl add acc)
            (recursion.leaf (sourceDir ++ Path.below names) arg name acc) state := by
          apply (leaf names name arg acc isFile here).mono
          rintro result after ⟨rfl, rfl⟩
          exact ⟨rfl, [names ++ [name]], .file tree isFile, rfl⟩
        split
        · apply Program.Always.call fun _ => ⟨_, _, .handing _ _ _ _ state⟩
          intro _ after answered
          cases answered
          exact added
        · exact added

end Tree

/-! ## The list of the multi-thread synchroniser -/

section Thread

variable {state : SysState} {sourceDir targetDir : Bytes} {source : Place} {total : Prop}

/-- The joined paths of the target fit, too. -/
def TargetFits (state : SysState) (source : Place) (targetDir : Bytes) : Prop :=
  ∀ names, names ≠ [] → state.files (source ++ names) ≠ none →
    (targetDir ++ Path.below names).length ≤ JOIN_LIMIT

def fileSize (state : SysState) (place : Place) : Int :=
  match state.files place with
  | none => -1
  | some node => (nodeStat node).size

theorem getFileSize_throughout {path : Bytes} {place : Place} {node : Node} {Value : Type}
    {rest : Int → Sys Value} {post : Value → SysState → Prop}
    (found : state.lookup path = some (place, node))
    (continued : Throughout total post (rest (nodeStat node).size) state) :
    Throughout total post (getFileSize path >>= rest) state := by
  rw [getFileSize, bind_assoc]
  apply Program.Always.call fun _ => ⟨_, _, .stat path state⟩
  intro response after answered
  rcases answers_stat answered with ⟨rfl, rfl⟩
  rw [statOf_of_lookup found]
  exact continued

/-- The entry of the list for a file. -/
def listedFile (state : SysState) (sourceDir targetDir : Bytes) (source : Place)
    (names : List Bytes) : FileInfo :=
  ⟨sourceDir ++ Path.below names, targetDir ++ Path.below names, fileSize state (source ++ names), true⟩

theorem SourceTree.short (tree : SourceTree state sourceDir source) {names : List Bytes}
    (isFile : RegularAt state source names) : names ≠ [] ∧ state.files (source ++ names) ≠ none := by
  rcases isFile with ⟨file, found⟩
  constructor
  · rintro rfl
    have directory := tree.directory
    rw [List.append_nil] at found
    rw [Files.isDirectory, found] at directory
    cases directory
  · rw [found]
    exact Option.some_ne_none _

/-- Every regular file of the source is on the list, once. -/
theorem traverseDirectory_throughout (tree : SourceTree state sourceDir source)
    (targetFits : TargetFits state source targetDir)
    (finite : total → {names | state.files (source ++ names) ≠ none}.Finite) {depth : Nat}
    (enough : total → ∀ names, state.files (source ++ names) ≠ none → names.length < depth) :
    Throughout total (fun list after => after = state ∧ ∃ listed, ListsFiles state source [] listed ∧
        list.files = listed.map (listedFile state sourceDir targetDir source) ∧ list.currentIndex = 0)
      (traverseDirectory depth sourceDir targetDir initFileList) state := by
  have isDirectory := tree.directory
  rw [← List.append_nil source] at isDirectory
  have collected := traverseDirectoryLoop.collects tree finite
    (fun names arg => arg.1 = targetDir ++ Path.below names)
    (fun list names => addFileToList list (sourceDir ++ Path.below names)
      (targetDir ++ Path.below names) (fileSize state (source ++ names)))
    (fun _ _ => rfl) (by
      rintro names name ⟨directory, list⟩ acc there rfl
      exact ⟨joinPath_below (targetFits _ (by simp) there), rfl⟩) (by
      rintro names name ⟨directory, list⟩ acc ⟨file, found⟩ rfl
      have there := (tree.short ⟨file, found⟩).2
      have isSize : fileSize state (source ++ (names ++ [name])) = (nodeStat (.regular file)).size := by
        rw [fileSize, found]
      have isTarget := joinPath_below (targetFits (names ++ [name]) (by simp) there)
      dsimp only [traverseDirectoryLoop]
      rw [tree.joinPath there, isTarget, isSize]
      apply getFileSize_throughout (tree.found _ _ found)
      exact ⟨rfl, rfl⟩) isDirectory enough
    (show (targetDir, initFileList).1 = targetDir ++ Path.below [] from (List.append_nil targetDir).symm)
  rw [Path.below_nil, List.append_nil] at collected
  apply collected.mono
  rintro list after ⟨rfl, listed, lists, rfl⟩
  have filled : listed.foldl (fun list names => addFileToList list (sourceDir ++ Path.below names)
      (targetDir ++ Path.below names) (fileSize after (source ++ names))) initFileList =
      fillFileList (listed.map fun names => (sourceDir ++ Path.below names,
        targetDir ++ Path.below names, fileSize after (source ++ names))) := by
    rw [fillFileList, List.foldl_map]
  refine ⟨rfl, listed, lists, ?_, ?_⟩
  · change FileList.files (listed.foldl _ initFileList) = _
    rw [filled, (fillFileList_files _).1, List.map_map]
    apply List.map_congr_left
    intro names member
    rcases tree.short ((lists.mem_iff names).mp member).2 with ⟨nonempty, there⟩
    have sourceShort := tree.fits names nonempty there
    have targetShort := targetFits names nonempty there
    rw [Function.comp, listedFile, take_of_short (Nat.lt_of_le_of_lt sourceShort (by decide)),
      take_of_short (Nat.lt_of_le_of_lt targetShort (by decide))]
  · change FileList.currentIndex (listed.foldl _ initFileList) = _
    rw [filled, (fillFileList_files _).2]

end Thread

end Apue.Sync
