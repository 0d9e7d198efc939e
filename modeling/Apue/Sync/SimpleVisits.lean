import Apue.Sync.Attributes
import Apue.Sync.DryRuns

/-! # The files that the simple synchroniser visits

`sync_directory` hands every regular file of the source to `sync_file`. What holds in
between is said by a predicate on the files that were visited, so that one induction
serves the dry runs and the others.
-/

namespace Apue.Sync.SimpleRsync

open Apue.Foundation

/-- What a call of `sync_file` does with any file, whichever files were visited before. -/
structure FileVisits (total : Prop) (dryRun : Bool) (start : SysState) (srcDir dstDir : Bytes)
    (source : Place) (holds : (List Bytes → Prop) → SysState → Prop) : Prop where
  congr : ∀ done more state, holds done state → (∀ names file,
    start.files (source ++ names) = some (.regular file) → (more names ↔ done names)) → holds more state
  found : ∀ done state names node, holds done state → start.files (source ++ names) = some node →
    state.lookup (srcDir ++ Path.below names) = some (source ++ names, node)
  sameSource : ∀ done state, holds done state → ∀ names,
    state.files (source ++ names) = start.files (source ++ names)
  syncFile : ∀ done state names file, holds done state →
    start.files (source ++ names) = some (.regular file) → Throughout total (fun result after =>
      result = 0 ∧ holds (fun other => done other ∨ other = names) after)
      (SimpleRsync.syncFile (srcDir ++ Path.below names) (dstDir ++ Path.below names) dryRun) state

section Visits

variable {total : Prop} {dryRun : Bool} {start state : SysState} {srcDir dstDir : Bytes}
  {source target : Place} {holds : (List Bytes → Prop) → SysState → Prop} {done : List Bytes → Prop}
  {names : List Bytes} {name : Bytes} {depth : Nat}

/-- The entries of a directory can be read, each of them once. -/
theorem readDirectory_throughout {path : Bytes} {place : Place} {size : Nat} {mtime : Int}
    {Value : Type} {rest : Option (List Bytes) → Sys Value} {post : Value → SysState → Prop}
    (found : state.lookup path = some (place, .directory size mtime))
    (finite : total → {name | state.files (place ++ [name]) ≠ none}.Finite)
    (lists : ∀ entries, state.files.Lists place entries →
      Throughout total post (rest (some entries)) state) :
    Throughout total post (Sys.readDirectory path >>= rest) state := by
  apply Program.Always.call
  · intro isTotal
    rcases ((Set.toFinite {Path.DOT, Path.DOTDOT}).union (finite isTotal)).exists_finset with
      ⟨all, mem_iff⟩
    refine ⟨_, _, .readDirectory found ⟨all.nodup_toList, fun name => ?_⟩⟩
    rw [Finset.mem_toList, mem_iff]
    simp only [Set.mem_union, Set.mem_insert_iff, Set.mem_ofPred_eq, Set.mem_singleton_iff, or_assoc]
  · intro listed after answered
    cases answered with
    | noDirectory missing => exact absurd found (missing _ _ _)
    | readDirectory isThere isListed =>
        rw [found] at isThere
        cases isThere
        exact lists _ isListed

theorem FileVisits.entries (visits : FileVisits total dryRun start srcDir dstDir source holds)
    {visit : Bytes → Sys Int} {entries : List Bytes}
    (each : ∀ name ∈ entries, ∀ done between, holds done between →
      Throughout total (fun result after => result = 0 ∧
        holds (fun other => done other ∨ names ++ [name] <+: other) after) (visit name) between)
    (here : holds done state) :
    Throughout total (fun result after => result = 0 ∧
        holds (fun other => done other ∨ ∃ name ∈ entries, names ++ [name] <+: other) after)
      (syncEntries visit entries) state := by
  induction entries generalizing done state with
  | nil =>
      refine ⟨rfl, visits.congr _ _ _ here fun other file _ => ?_⟩
      simp only [List.not_mem_nil, false_and, exists_false, or_false]
  | cons name entries hypothesis =>
      apply Program.Always.bind
      apply (each name List.mem_cons_self done state here).mono
      rintro _ between ⟨rfl, visited⟩
      rw [if_neg (by decide)]
      apply (hypothesis (fun other member => each other (List.mem_cons_of_mem _ member)) visited).mono
      rintro _ after ⟨rfl, holdsAll⟩
      refine ⟨rfl, visits.congr _ _ _ holdsAll fun other file _ => ?_⟩
      simp only [List.mem_cons, exists_eq_or_imp, or_assoc]

/-- An entry: a file is visited, and of a directory every file that is in it. -/
theorem FileVisits.entry (visits : FileVisits total dryRun start srcDir dstDir source holds)
    (trees : Trees start depth srcDir dstDir source target) {recurse : Bytes → Bytes → Sys Int}
    (inner : start.files.isDirectory (source ++ (names ++ [name])) = true → ∀ between,
      holds done between → Throughout total (fun result after => result = 0 ∧
        holds (fun other => done other ∨ names ++ [name] <+: other) after)
        (recurse (srcDir ++ Path.below (names ++ [name])) (dstDir ++ Path.below (names ++ [name])))
        between)
    (entry : name = Path.DOT ∨ name = Path.DOTDOT ∨ start.files (source ++ (names ++ [name])) ≠ none)
    (here : holds done state) :
    Throughout total (fun result after => result = 0 ∧
        holds (fun other => done other ∨ names ++ [name] <+: other) after)
      (visitEntry dryRun recurse (srcDir ++ Path.below names) (dstDir ++ Path.below names) name)
      state := by
  rw [visitEntry]
  split
  · rename_i dots
    refine ⟨rfl, visits.congr _ _ _ here fun other file isFile => or_iff_left ?_⟩
    rintro ⟨rest, rfl⟩
    have there : start.files (source ++ (names ++ [name] ++ rest)) ≠ none := by
      rw [isFile]
      exact Option.some_ne_none _
    have proper := trees.wellFormed.names_proper there name (by simp)
    exact dots.elim proper.noDot proper.noDotDot
  rename_i noDots
  rw [not_or] at noDots
  have there := (entry.resolve_left noDots.1).resolve_left noDots.2
  have fits := trees.fits (names ++ [name]) there
  rw [Path.below_concat, ← List.append_assoc, ← List.append_assoc] at fits
  have srcPath : joinPath SimpleRsync.JOIN_LIMIT (srcDir ++ Path.below names) name =
      srcDir ++ Path.below (names ++ [name]) := by
    rw [Path.below_concat, ← List.append_assoc]
    exact List.take_of_length_le fits.2.1
  have dstPath : joinPath SimpleRsync.JOIN_LIMIT (dstDir ++ Path.below names) name =
      dstDir ++ Path.below (names ++ [name]) := by
    rw [Path.below_concat, ← List.append_assoc]
    exact List.take_of_length_le fits.2.2
  rw [srcPath, dstPath]
  rcases Option.ne_none_iff_exists'.mp there with ⟨node, found⟩
  apply Program.Always.call fun _ => ⟨_, _, .stat _ state⟩
  intro stat between answered
  rcases answers_stat answered with ⟨rfl, rfl⟩
  rw [statOf_of_lookup (visits.found _ _ _ _ here found)]
  cases node with
  | directory size mtime =>
      apply Program.Always.call fun _ => ⟨_, _, .descend _ _ between⟩
      intro _ after answered
      cases answered
      exact inner (Files.isDirectory_iff.mpr ⟨size, mtime, found⟩) _ here
  | regular file =>
      apply Program.Always.call fun _ => ⟨_, _, .handing _ _ _ _ between⟩
      intro _ after answered
      cases answered
      apply (visits.syncFile _ _ _ _ here found).mono
      rintro _ last ⟨rfl, visited⟩
      refine ⟨rfl, visits.congr _ _ _ visited fun other copy isFile => or_congr_right ⟨?_, ?_⟩⟩
      · rintro ⟨rest, rfl⟩
        rcases eq_or_ne rest [] with rfl | more
        · rw [List.append_nil]
        · have directory := trees.directory_above more (by rw [isFile]; exact Option.some_ne_none _)
          rw [Files.isDirectory, found] at directory
          cases directory
      · rintro rfl
        exact List.prefix_refl _

theorem FileVisits.directory (visits : FileVisits total dryRun start srcDir dstDir source holds)
    (trees : Trees start depth srcDir dstDir source target)
    (finite : total → {names | start.files (source ++ names) ≠ none}.Finite)
    (directory : start.files.isDirectory (source ++ names) = true) {rounds : Nat}
    (enough : depth ≤ names.length + rounds) (here : holds done state) :
    Throughout total (fun result after => result = 0 ∧
        holds (fun other => done other ∨ names <+: other) after)
      (SimpleRsync.syncDirectory dryRun rounds (srcDir ++ Path.below names)
        (dstDir ++ Path.below names)) state := by
  rcases Files.isDirectory_iff.mp directory with ⟨size, mtime, there⟩
  have deep := (trees.fits names (by rw [there]; exact Option.some_ne_none _)).1
  induction rounds generalizing names done state size mtime with
  | zero => omega
  | succ rounds hypothesis =>
      have same : ∀ name, state.files (source ++ names ++ [name]) =
          start.files (source ++ (names ++ [name])) := by
        intro name
        rw [List.append_assoc]
        exact visits.sameSource _ _ here _
      rw [syncDirectory_succ]
      apply readDirectory_throughout (visits.found _ _ _ _ here there)
      · intro isTotal
        apply ((finite isTotal).preimage (f := fun name => names ++ [name]) _).subset
        · intro name isThere
          rw [Set.mem_preimage, Set.mem_ofPred_eq, ← same]
          exact isThere
        · intro first _ second _ isSame
          simpa using isSame
      intro entries lists
      apply Program.Always.mono
      · apply visits.entries _ here
        · exact names
        intro name member done between holdsBetween
        apply visits.entry trees _ _ holdsBetween
        · intro isDirectory last holdsLast
          rcases Files.isDirectory_iff.mp isDirectory with ⟨size, mtime, isThere⟩
          have deeper := (trees.fits _ (by rw [isThere]; exact Option.some_ne_none _)).1
          apply hypothesis isDirectory _ holdsLast size mtime isThere deeper
          rw [List.length_append, List.length_singleton]
          omega
        · rw [← same]
          exact (lists.mem_iff name).mp member
      · rintro _ after ⟨rfl, visited⟩
        refine ⟨rfl, visits.congr _ _ _ visited fun other file isFile => or_congr_right ⟨?_, ?_⟩⟩
        · rintro ⟨rest, rfl⟩
          cases rest with
          | nil =>
              rw [List.append_nil, there] at isFile
              cases isFile
          | cons name rest =>
              refine ⟨name, (lists.mem_iff name).mpr (Or.inr (Or.inr ?_)), rest, by simp⟩
              rw [same]
              have isThere : start.files (source ++ (names ++ [name] ++ rest)) ≠ none := by
                rw [List.append_assoc, List.singleton_append, isFile]
                exact Option.some_ne_none _
              rcases eq_or_ne rest [] with rfl | more
              · rw [List.append_nil] at isThere
                exact isThere
              · rcases Files.isDirectory_iff.mp (trees.directory_above more isThere) with
                  ⟨_, _, isDirectory⟩
                rw [isDirectory]
                exact Option.some_ne_none _
        · rintro ⟨name, _, isPrefix⟩
          exact (List.prefix_append _ _).trans isPrefix

/-- A whole run visits every file. -/
theorem FileVisits.run (visits : FileVisits total dryRun start srcDir dstDir source holds)
    (trees : Trees start depth srcDir dstDir source target)
    (finite : total → {names | start.files (source ++ names) ≠ none}.Finite)
    (here : holds (fun _ => False) start) :
    Throughout total (fun result after => result = 0 ∧ holds (fun _ => True) after)
      (SimpleRsync.syncDirectory dryRun depth srcDir dstDir) start := by
  have directory : start.files.isDirectory (source ++ []) = true := by
    rw [List.append_nil]
    exact trees.leads.2
  have visited := visits.directory trees finite directory (Nat.le_add_left depth 0) here
  rw [Path.below_nil, List.append_nil, List.append_nil] at visited
  apply visited.mono
  rintro _ after ⟨rfl, holdsAll⟩
  refine ⟨rfl, visits.congr _ _ _ holdsAll fun names file _ => ?_⟩
  simp only [List.nil_prefix, or_true]

end Visits

end Apue.Sync.SimpleRsync
