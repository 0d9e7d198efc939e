import Apue.Sync.Recursions

/-! # The recursions of the synchronisers

`traverse_directory` and `sync_directory_structure` of two programs and
`sync_directory` of the third are recursions of the kind of `Apue.Sync.Recursions`.
-/

namespace Apue.Sync

open Apue.Foundation

variable {cwd source : Place} {cut path : Bytes} {state : TreeState} {Value Other : Type}

/-! ## One call -/

section Calls

variable {allowed : SysCall → TreeState → Prop} {post : Value → TreeState → Prop}

theorem TreeAnswers.unchanged {call : SysCall} (response : SysResponse call)
    (different : ¬ LooksAtFiles call) : TreeAnswers cwd source cut call state response state :=
  .other response different .refl

theorem lookup_isDirectory {files : Files} :
    (∃ inner, files.LeadsToDirectory cwd path inner) ↔
      ∃ found, files.lookup cwd path = some found ∧ (nodeStat found.2).isDirectory = true := by
  constructor
  · rintro ⟨inner, resolved, directory⟩
    rcases Files.isDirectory_iff.mp directory with ⟨size, mtime, there⟩
    exact ⟨_, Files.lookup_eq_some.mpr ⟨resolved, there⟩, rfl⟩
  · rintro ⟨⟨place, node⟩, found, directory⟩
    rcases Files.lookup_eq_some.mp found with ⟨resolved, there⟩
    cases node with
    | directory size mtime => exact ⟨place, resolved, Files.isDirectory_iff.mpr ⟨_, _, there⟩⟩
    | regular file => cases directory

/-- The answer of `stat`, as far as the recursions look at it. -/
theorem always_stat {rest : Option Stat → Sys Value} (here : allowed (.stat path) state)
    (directory : ∀ inner found, state.files.LeadsToDirectory cwd path inner →
      found.isDirectory = true →
      (rest (some found)).Always (TreeAnswers cwd source cut) allowed post state)
    (other : ∀ found, (∀ inner, ¬ state.files.LeadsToDirectory cwd path inner) →
      (∀ there, found = some there →
        there.isDirectory = false ∧ (state.files.lookup cwd path).isSome = true) →
      (rest found).Always (TreeAnswers cwd source cut) allowed post state) :
    (Sys.stat path >>= rest).Always (TreeAnswers cwd source cut) allowed post state := by
  apply Program.Always.call here
  intro response after stepped
  cases stepped with
  | other _ different _ => exact absurd trivial different
  | stat path =>
      by_cases leads : ∃ inner, state.files.LeadsToDirectory cwd path inner
      · rcases lookup_isDirectory.mp leads with ⟨there, found, isThere⟩
        rcases leads with ⟨inner, leads⟩
        rw [found]
        exact directory inner _ leads isThere
      · apply other
        · exact fun inner leadsInner => leads ⟨inner, leadsInner⟩
        · intro there same
          rw [Option.map_eq_some_iff] at same
          rcases same with ⟨found, isThere, rfl⟩
          rw [← Bool.not_eq_true, isThere]
          exact ⟨fun isDirectory => leads (lookup_isDirectory.mpr ⟨found, isThere, isDirectory⟩),
            rfl⟩

theorem always_isDirectory {rest : Bool → Sys Value} (here : allowed (.stat path) state)
    (yes : ∀ inner, state.files.LeadsToDirectory cwd path inner →
      (rest true).Always (TreeAnswers cwd source cut) allowed post state)
    (no : (∀ inner, ¬ state.files.LeadsToDirectory cwd path inner) →
      (rest false).Always (TreeAnswers cwd source cut) allowed post state) :
    (isDirectory path >>= rest).Always (TreeAnswers cwd source cut) allowed post state := by
  rw [isDirectory, bind_assoc]
  apply always_stat here
  · intro inner found leads directory
    simp only [Program.pure_eq, Program.done_bind, directory]
    exact yes inner leads
  · intro found missing notDirectory
    cases found with
    | none => exact no missing
    | some found =>
        simp only [Program.pure_eq, Program.done_bind, (notDirectory found rfl).1]
        exact no missing

/-- What holds of every run holds behind the answer that the files give. -/
theorem stat_always {rest : Option Stat → Sys Value}
    (always : (Sys.stat path >>= rest).Always (TreeAnswers cwd source cut) allowed post state) :
    (rest ((state.files.lookup cwd path).map fun found => nodeStat found.2)).Always
      (TreeAnswers cwd source cut) allowed post state :=
  always.2 _ state (.stat path state)

theorem isDirectory_always {rest : Bool → Sys Value}
    (always : (isDirectory path >>= rest).Always (TreeAnswers cwd source cut) allowed post state) :
    (∀ inner, state.files.LeadsToDirectory cwd path inner →
      (rest true).Always (TreeAnswers cwd source cut) allowed post state) ∧
    ((∀ inner, ¬ state.files.LeadsToDirectory cwd path inner) →
      (rest false).Always (TreeAnswers cwd source cut) allowed post state) := by
  rw [isDirectory, bind_assoc] at always
  have answered := stat_always always
  constructor
  · intro inner leads
    rcases lookup_isDirectory.mp ⟨inner, leads⟩ with ⟨found, same, directory⟩
    rw [same] at answered
    simp only [Option.map_some, Program.pure_eq, Program.done_bind, directory] at answered
    exact answered
  · intro missing
    cases same : state.files.lookup cwd path with
    | none =>
        rw [same] at answered
        exact answered
    | some found =>
        have notDirectory : (nodeStat found.2).isDirectory = false := by
          rw [← Bool.not_eq_true]
          intro directory
          rcases lookup_isDirectory.mpr ⟨found, same, directory⟩ with ⟨inner, leads⟩
          exact missing inner leads
        rw [same] at answered
        simp only [Option.map_some, Program.pure_eq, Program.done_bind, notDirectory] at answered
        exact answered

theorem always_readDirectory {rest : Option (List Bytes) → Sys Value}
    (here : allowed (.readDirectory path) state)
    (lists : ∀ place names, state.files.LeadsToDirectory cwd path place →
      state.files.Lists place names →
        (rest (some names)).Always (TreeAnswers cwd source cut) allowed post state)
    (missing : (rest none).Always (TreeAnswers cwd source cut) allowed post state) :
    (Sys.readDirectory path >>= rest).Always (TreeAnswers cwd source cut) allowed post state := by
  apply Program.Always.call here
  intro response after stepped
  cases stepped with
  | readDirectory leads listed => exact lists _ _ leads listed
  | noDirectory _ => exact missing
  | other response different kept => exact absurd trivial different

end Calls

section Marks

variable {safety : Safety cwd source cut}

/-- A function that makes plain calls only. -/
theorem PlainProgram.tame {good : Value → Prop} {program : Sys Value}
    (plain : PlainProgram good program) (holds : safety.invariant state) :
    safety.Tame program state := by
  induction program generalizing state with
  | done value => exact ⟨holds, .refl⟩
  | call call next hypothesis =>
      refine ⟨safety.plain call state plain.1, fun response after stepped => ?_⟩
      have plainNext := plain.2 response () trivial
      cases stepped with
      | stat path => exact hypothesis _ plainNext holds
      | readDirectory leads lists => exact hypothesis _ plainNext holds
      | noDirectory missing => exact hypothesis _ plainNext holds
      | handing name first second leads => exact plain.1.elim
      | @other _ _ files response different kept =>
          apply (hypothesis response plainNext (safety.keeps state files holds kept)).mono
          exact fun _ last continued => ⟨continued.1, kept.trans continued.2⟩

/-- A program that goes on where another one has ended. -/
theorem Safety.Tame.bind {program : Sys Other} {rest : Other → Sys Value}
    (tame : safety.Tame program state)
    (continued : ∀ value (after : TreeState), safety.invariant after →
      KeepsSource cwd source cut state.files after.files → safety.Tame (rest value) after) :
    safety.Tame (program >>= rest) state := by
  apply Program.Always.bind
  apply Program.Always.mono tame
  intro value after kept
  apply Program.Always.mono (continued value after kept.1 kept.2)
  exact fun _ last keptLast => ⟨keptLast.1, kept.2.trans keptLast.2⟩

/-- A marked recursive call, before which the files may change once more. -/
theorem tame_descend {inner : Bytes} {rest : Unit → Sys Value} (holds : safety.invariant state)
    (below : safety.allowed (.descend path inner) state)
    (continued : ∀ after : TreeState, safety.invariant after →
      KeepsSource cwd source cut state.files after.files → safety.Tame (rest ()) after) :
    safety.Tame (Sys.descend path inner >>= rest) state := by
  apply Program.Always.call below
  intro response after stepped
  cases stepped with
  | @other _ _ files _ different kept =>
      apply Program.Always.mono (continued ⟨files, state.handed⟩
        (safety.keeps state files holds kept) kept)
      exact fun _ last keptLast => ⟨keptLast.1, kept.trans keptLast.2⟩

theorem tame_handing {name first second : Bytes} {rest : Unit → Sys Value}
    (holds : safety.invariant state)
    (right : safety.allowed (.handing path name first second) state)
    (continued : ∀ after : TreeState, safety.invariant after → after.files = state.files →
      safety.Tame (rest ()) after) :
    safety.Tame (Sys.handing path name first second >>= rest) state := by
  apply Program.Always.call right
  intro response after stepped
  cases stepped with
  | handing _ _ _ leads =>
      exact continued _ (safety.hands _ _ _ _ _ _ holds right leads) rfl
  | other _ different _ => exact absurd trivial different

theorem tame_foldlM {Item : Type} {body : Value → Item → Sys Value} {items : List Item}
    (each : ∀ item ∈ items, ∀ value (after : TreeState), safety.invariant after →
      KeepsSource cwd source cut state.files after.files → safety.Tame (body value item) after)
    (value : Value) (holds : safety.invariant state) :
    safety.Tame (items.foldlM body value) state := by
  refine Program.Always.foldlM ?_ value ⟨holds, .refl⟩
  rintro item member between after ⟨kept, keptFiles⟩
  apply Program.Always.mono (each item member between after kept keptFiles)
  exact fun _ last keptLast => ⟨keptLast.1, keptFiles.trans keptLast.2⟩

end Marks

/-- Every entry may be the first one that `readdir` returns. -/
theorem exists_lists_first {files : Files} (finite : {there | files there ≠ none}.Finite)
    {place : Place} {name : Bytes} (there : files (place ++ [name]) ≠ none) :
    ∃ names, files.Lists place (name :: names) := by
  have entries : {name | files (place ++ [name]) ≠ none}.Finite := by
    apply Set.Finite.preimage _ finite
    intro first _ second _ same
    simpa using same
  rcases ((Set.toFinite {Path.DOT, Path.DOTDOT}).union entries).exists_finset with ⟨names, mem_iff⟩
  have whole : ∀ other, other ∈ names ↔
      other = Path.DOT ∨ other = Path.DOTDOT ∨ files (place ++ [other]) ≠ none := by
    intro other
    rw [mem_iff]
    simp only [Set.mem_union, Set.mem_insert_iff, Set.mem_singleton_iff, Set.mem_ofPred_eq, or_assoc]
  refine ⟨(names.erase name).toList, ?_, fun other => ?_⟩
  · rw [List.nodup_cons]
    exact ⟨by simp, Finset.nodup_toList _⟩
  · rw [List.mem_cons, Finset.mem_toList, Finset.mem_erase, ← whole other]
    constructor
    · rintro (rfl | member)
      · exact (whole other).mpr (Or.inr (Or.inr there))
      · exact member.2
    · intro member
      exact (eq_or_ne other name).imp_right fun different => ⟨different, member⟩

theorem forM_eq_foldlM {Item : Type} (body : Item → Sys PUnit) (items : List Item) :
    items.forM body = items.foldlM (fun _ item => body item) PUnit.unit := by
  induction items with
  | nil => rfl
  | cons item items hypothesis =>
      rw [List.forM_eq_forM, List.forM_cons, List.foldlM_cons, ← List.forM_eq_forM, hypothesis]

/-! ## Recursions with a loop over the entries -/

section Loop

variable {limit : Nat} {Arg Acc : Type} {name : Bytes}

/-- What a recursion does with an entry: it calls itself where the joined path is
that of a directory. -/
def entryBody (limit : Nat) (path : Bytes) (recurse leaf : Bytes → Acc → Sys Acc) (acc : Acc)
    (name : Bytes) : Sys Acc :=
  if name = Path.DOT ∨ name = Path.DOTDOT then pure acc
  else isDirectory (joinPath limit path name) >>= fun directory =>
    if directory then
      Sys.descend path (joinPath limit path name) >>= fun _ => recurse name acc
    else leaf name acc

/-- A recursion that makes some plain calls and then a loop over the entries. -/
structure LoopRecursion (hands : Bool) (limit : Nat) (targetDir : Bytes → Arg → Bytes)
    (program : Nat → Bytes → Arg → Sys Acc) where
  initial : Arg → Acc
  inner : Arg → Bytes → Acc → Arg
  prelude : Bytes → Arg → Sys Unit
  leaf : Bytes → Arg → Bytes → Acc → Sys Acc
  stops : ∀ path arg, program 0 path arg = Sys.tooDeep
  goes : ∀ depth path arg, program (depth + 1) path arg = Sys.readDirectory path >>= fun found =>
    match found with
    | none => pure (initial arg)
    | some names => prelude path arg >>= fun _ => names.foldlM (entryBody limit path
        (fun name acc => program depth (joinPath limit path name) (inner arg name acc))
        (fun name acc => if hands then
            Sys.handing path name (joinPath limit path name)
              (joinPath limit (targetDir path arg) name) >>= fun _ => leaf path arg name acc
          else leaf path arg name acc)) (initial arg)
  inner_targetDir : ∀ path arg name acc, targetDir (joinPath limit path name) (inner arg name acc) =
    joinPath limit (targetDir path arg) name
  plainPrelude : ∀ path arg, PlainProgram (fun _ => True) (prelude path arg)
  preludeRuns : ∀ cwd source cut path arg (state : TreeState),
    (prelude path arg).Runs (TreeAnswers cwd source cut) state () state
  plainLeaf : ∀ path arg name acc, PlainProgram (fun _ => True) (leaf path arg name acc)

variable {hands : Bool} {targetDir : Bytes → Arg → Bytes} {program : Nat → Bytes → Arg → Sys Acc}

theorem LoopRecursion.directoryRecursion (recursion : LoopRecursion hands limit targetDir program) :
    DirectoryRecursion (fun _ => hands) limit targetDir program where
  stops := recursion.stops
  calls := by
    intro cwd source cut safety depth path arg place state holds leads good
    rw [recursion.goes]
    apply always_readDirectory (safety.plain _ _ trivial)
    · intro other names leadsOther lists
      rcases leads other leadsOther with rfl
      apply ((recursion.plainPrelude path arg).tame holds).bind
      intro _ after holdsAfter kept
      apply tame_foldlM _ _ holdsAfter
      intro name member acc between holdsBetween keptBetween
      rw [entryBody]
      split
      · exact ⟨holdsBetween, .refl⟩
      rename_i noDots
      rw [not_or] at noDots
      have entry : Entry state.files other name :=
        ⟨((lists.mem_iff name).mp member).resolve_left noDots.1 |>.resolve_left noDots.2,
          noDots.1, noDots.2⟩
      have goodHere := good name entry between holdsBetween (kept.trans keptBetween)
      apply always_isDirectory (safety.plain _ _ trivial)
      · intro inner leadsInner
        rcases goodHere.1 inner leadsInner with ⟨below, continued⟩
        apply tame_descend holdsBetween below
        intro last holdsLast keptLast
        exact continued _ (recursion.inner_targetDir path arg name acc) last holdsLast keptLast
      · intro missing
        have plainLeaf := recursion.plainLeaf path arg name acc
        rw [if_neg Bool.false_ne_true]
        split
        · rename_i isHanding
          apply tame_handing holdsBetween (goodHere.2 isHanding missing)
          intro last holdsLast same
          apply Program.Always.mono (plainLeaf.tame holdsLast)
          rw [same]
          exact fun _ _ kept => kept
        · exact plainLeaf.tame holdsBetween
    · exact ⟨holds, .refl⟩
  enters := by
    intro cwd source cut safety depth path arg place name state finite allows leads entry
    rw [recursion.goes] at allows
    rcases exists_lists_first finite entry.there with ⟨names, lists⟩
    have looped : safety.Allows (recursion.prelude path arg >>= fun _ =>
        (name :: names).foldlM (entryBody limit path
          (fun name acc => program depth (joinPath limit path name) (recursion.inner arg name acc))
          (fun name acc => if hands then
              Sys.handing path name (joinPath limit path name)
                (joinPath limit (targetDir path arg) name) >>= fun _ =>
                  recursion.leaf path arg name acc
            else recursion.leaf path arg name acc)) (recursion.initial arg)) state :=
      allows.2 _ state (.readDirectory leads lists)
    have body := looped.behind (recursion.preludeRuns cwd source cut path arg state)
    rw [List.foldlM_cons] at body
    have first := body.front
    rw [entryBody, if_neg (by rw [not_or]; exact ⟨entry.noDot, entry.noDotDot⟩)] at first
    rcases isDirectory_always first with ⟨directory, other⟩
    constructor
    · intro inner leadsInner
      have descends := directory inner leadsInner
      have marked : TreeAnswers cwd source cut (.descend path (joinPath limit path name)) state ()
        state := .unchanged _ id
      exact ⟨descends.1, _, recursion.inner_targetDir path arg name _, descends.2 () state marked⟩
    · intro isHanding missing
      have handed := other missing
      rw [if_neg Bool.false_ne_true, if_pos isHanding] at handed
      exact handed.1

end Loop

/-! ## The functions -/

/-- What `traverse_directory` works on besides the path: the target path and the
list. -/
def traverseDirectoryLoop : LoopRecursion true JOIN_LIMIT
    (fun _ (arg : Bytes × FileList) => arg.1)
    fun depth path arg => traverseDirectory depth path arg.1 arg.2 where
  initial := fun arg => arg.2
  inner := fun arg name list => (joinPath JOIN_LIMIT arg.1 name, list)
  prelude := fun _ _ => pure ()
  leaf := fun path arg name list => getFileSize (joinPath JOIN_LIMIT path name) >>= fun size =>
    pure (addFileToList list (joinPath JOIN_LIMIT path name) (joinPath JOIN_LIMIT arg.1 name) size)
  stops := fun _ _ => rfl
  goes := fun _ _ _ => rfl
  inner_targetDir := fun _ _ _ _ => rfl
  plainPrelude := fun _ _ => trivial
  preludeRuns := fun _ _ _ _ _ state => .done () state
  plainLeaf := fun _ _ _ _ => OnlyCalls.bind (basic_getFileSize _).plain fun _ => trivial

def multiProcessTraverseDirectoryLoop :
    LoopRecursion true JOIN_LIMIT (fun path _ => path) MultiProcess.traverseDirectory where
  initial := fun list => list
  inner := fun _ _ list => list
  prelude := fun _ _ => pure ()
  leaf := fun path _ name list => MultiProcess.addFileToList list (joinPath JOIN_LIMIT path name)
  stops := fun _ _ => rfl
  goes := fun _ _ _ => rfl
  inner_targetDir := fun _ _ _ _ => rfl
  plainPrelude := fun _ _ => trivial
  preludeRuns := fun _ _ _ _ _ state => .done () state
  plainLeaf := fun _ _ _ _ => OnlyCalls.bind (basic_getFileSize _).plain fun _ => trivial

/-- The directory that `sync_directory_structure` creates before its loop. -/
def createRelative (targetDir relative : Bytes) : Sys Unit := do
  if relative.length > 0 then
    let _ ← createDirectory (joinPath JOIN_LIMIT targetDir relative)

theorem plain_createRelative (targetDir relative : Bytes) :
    PlainProgram (fun _ => True) (createRelative targetDir relative) := by
  rw [createRelative]
  split
  · exact OnlyCalls.bind (plain_createDirectory _) fun _ => trivial
  · trivial

/-- When `access` finds something, there is nothing to create. -/
theorem createRelative_runs (targetDir relative : Bytes) :
    (createRelative targetDir relative).Runs (TreeAnswers cwd source cut) state () state := by
  rw [createRelative]
  split
  · have there : TreeAnswers cwd source cut
      (.access (joinPath JOIN_LIMIT targetDir relative)) state true state := .unchanged _ id
    exact .call there (.done () state)
  · exact .done () state

theorem createRelative_then (targetDir relative : Bytes) (rest : Sys Unit) :
    (do
      if relative.length > 0 then
        let _ ← createDirectory (joinPath JOIN_LIMIT targetDir relative)
      rest) = createRelative targetDir relative >>= fun _ => rest := by
  rw [createRelative]
  split
  · rw [bind_assoc]
    rfl
  · rfl

def syncDirectoryStructureLoop (config : SyncConfig) :
    LoopRecursion false JOIN_LIMIT (fun path _ => path) fun depth path (_ : Unit) =>
      syncDirectoryStructure config depth path where
  initial := fun _ => ()
  inner := fun _ _ _ => ()
  prelude := fun path _ => createRelative config.targetDir (getRelativePath config.sourceDir path)
  leaf := fun _ _ _ _ => pure ()
  stops := fun _ _ => rfl
  goes := by
    intro depth path _
    refine congrArg (fun rest => Sys.readDirectory path >>= rest) (funext fun found => ?_)
    cases found with
    | none => rfl
    | some names =>
        simp only [forM_eq_foldlM]
        exact createRelative_then _ _ _
  inner_targetDir := fun _ _ _ _ => rfl
  plainPrelude := fun _ _ => plain_createRelative _ _
  preludeRuns := fun _ _ _ _ _ _ => createRelative_runs _ _
  plainLeaf := fun _ _ _ _ => trivial

def multiProcessSyncDirectoryStructureLoop (config : MultiProcess.SyncConfig) :
    LoopRecursion false JOIN_LIMIT (fun path _ => path) fun depth path (_ : Unit) =>
      MultiProcess.syncDirectoryStructure config depth path where
  initial := fun _ => ()
  inner := fun _ _ _ => ()
  prelude := fun path _ =>
    createRelative config.targetDir (MultiProcess.getRelativePath config.sourceDir path)
  leaf := fun _ _ _ _ => pure ()
  stops := fun _ _ => rfl
  goes := by
    intro depth path _
    refine congrArg (fun rest => Sys.readDirectory path >>= rest) (funext fun found => ?_)
    cases found with
    | none => rfl
    | some names =>
        simp only [forM_eq_foldlM]
        exact createRelative_then _ _ _
  inner_targetDir := fun _ _ _ _ => rfl
  plainPrelude := fun _ _ => plain_createRelative _ _
  preludeRuns := fun _ _ _ _ _ _ => createRelative_runs _ _
  plainLeaf := fun _ _ _ _ => trivial

/-! ### `sync_directory` -/

namespace SimpleRsync

/-- The body of the loop of `sync_directory`. -/
def visitEntry (dryRun : Bool) (recurse : Bytes → Bytes → Sys Int) (srcDir dstDir name : Bytes) :
    Sys Int :=
  if name = Path.DOT ∨ name = Path.DOTDOT then pure 0
  else Sys.stat (joinPath SimpleRsync.JOIN_LIMIT srcDir name) >>= fun found => match found with
    | none => pure 0
    | some statbuf =>
        if statbuf.isDirectory then
          Sys.descend srcDir (joinPath SimpleRsync.JOIN_LIMIT srcDir name) >>= fun _ =>
            recurse (joinPath SimpleRsync.JOIN_LIMIT srcDir name)
              (joinPath SimpleRsync.JOIN_LIMIT dstDir name)
        else
          Sys.handing srcDir name (joinPath SimpleRsync.JOIN_LIMIT srcDir name)
              (joinPath SimpleRsync.JOIN_LIMIT dstDir name) >>= fun _ =>
            SimpleRsync.syncFile (joinPath SimpleRsync.JOIN_LIMIT srcDir name)
              (joinPath SimpleRsync.JOIN_LIMIT dstDir name) dryRun

theorem syncDirectory_succ (dryRun : Bool) (depth : Nat) (srcDir dstDir : Bytes) :
    syncDirectory dryRun (depth + 1) srcDir dstDir = Sys.readDirectory srcDir >>= fun found =>
      match found with
      | none => pure (-1)
      | some names => syncEntries (visitEntry dryRun (syncDirectory dryRun depth) srcDir dstDir)
          names :=
  rfl

theorem tame_syncEntries {safety : Safety cwd source cut} {visit : Bytes → Sys Int}
    {names : List Bytes}
    (each : ∀ name ∈ names, ∀ after : TreeState, safety.invariant after →
      KeepsSource cwd source cut state.files after.files → safety.Tame (visit name) after)
    (holds : safety.invariant state) : safety.Tame (syncEntries visit names) state := by
  induction names generalizing state with
  | nil => exact ⟨holds, .refl⟩
  | cons name names hypothesis =>
      apply (each name List.mem_cons_self state holds .refl).bind
      intro code after holdsAfter kept
      split
      · exact ⟨holdsAfter, .refl⟩
      · apply hypothesis _ holdsAfter
        intro other member last holdsLast keptLast
        exact each other (List.mem_cons_of_mem _ member) last holdsLast (kept.trans keptLast)

theorem directoryRecursion (dryRun : Bool) :
    DirectoryRecursion (fun there => there) SimpleRsync.JOIN_LIMIT (fun _ dstDir => dstDir)
      (syncDirectory dryRun) where
  stops := fun _ _ => rfl
  calls := by
    intro cwd source cut safety depth path arg place state holds leads good
    rw [syncDirectory_succ]
    apply always_readDirectory (safety.plain _ _ trivial)
    · intro other names leadsOther lists
      rcases leads other leadsOther with rfl
      apply tame_syncEntries _ holds
      intro name member after holdsAfter kept
      rw [visitEntry]
      split
      · exact ⟨holdsAfter, .refl⟩
      rename_i noDots
      rw [not_or] at noDots
      have entry : Entry state.files other name :=
        ⟨((lists.mem_iff name).mp member).resolve_left noDots.1 |>.resolve_left noDots.2,
          noDots.1, noDots.2⟩
      have goodHere := good name entry after holdsAfter kept
      apply always_stat (safety.plain _ _ trivial)
      · intro inner found leadsInner directory
        rcases goodHere.1 inner leadsInner with ⟨below, continued⟩
        simp only [directory, if_true]
        apply tame_descend holdsAfter below
        exact fun last holdsLast keptLast => continued _ rfl last holdsLast keptLast
      · intro found missing notDirectory
        cases found with
        | none => exact ⟨holdsAfter, .refl⟩
        | some found =>
            rcases notDirectory found rfl with ⟨regular, there⟩
            simp only [regular, Bool.false_eq_true, if_false]
            apply tame_handing holdsAfter (goodHere.2 there missing)
            intro last holdsLast same
            apply Program.Always.mono ((plain_syncFile _ _ _).tame holdsLast)
            rw [same]
            exact fun _ _ kept => kept
    · exact ⟨holds, .refl⟩
  enters := by
    intro cwd source cut safety depth path arg place name state finite allows leads entry
    rw [syncDirectory_succ] at allows
    rcases exists_lists_first finite entry.there with ⟨names, lists⟩
    have looped : safety.Allows (visitEntry dryRun (syncDirectory dryRun depth) path arg name >>=
        fun code => if code = -1 then pure (-1)
          else syncEntries (visitEntry dryRun (syncDirectory dryRun depth) path arg) names) state :=
      allows.2 _ state (.readDirectory leads lists)
    have first := looped.front
    rw [visitEntry, if_neg (by rw [not_or]; exact ⟨entry.noDot, entry.noDotDot⟩)] at first
    have answered := stat_always first
    constructor
    · intro inner leadsInner
      rcases lookup_isDirectory.mp ⟨inner, leadsInner⟩ with ⟨found, same, directory⟩
      rw [same] at answered
      simp only [Option.map_some, directory, if_true] at answered
      have marked : TreeAnswers cwd source cut
          (.descend path (joinPath SimpleRsync.JOIN_LIMIT path name)) state () state :=
        .unchanged _ id
      exact ⟨answered.1, _, rfl, answered.2 () state marked⟩
    · intro there missing
      rcases Option.isSome_iff_exists.mp there with ⟨found, same⟩
      have notDirectory : ¬ (nodeStat found.2).isDirectory = true := by
        intro directory
        rcases lookup_isDirectory.mpr ⟨found, same, directory⟩ with ⟨inner, leadsInner⟩
        exact missing inner leadsInner
      rw [same] at answered
      simp only [Option.map_some, notDirectory] at answered
      exact answered.1

end SimpleRsync

end Apue.Sync
