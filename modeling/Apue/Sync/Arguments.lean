import Apue.Sync.BufferedCopies
import Apue.Sync.MakingDirectories
import Apue.Sync.Recursions

/-! # The directories on the command line

`main` takes a slash off the end of its arguments, the recursions join paths to them,
and `sync_file` splits the paths again. The empty string must not come to
`create_directory`.
-/

namespace Apue.Sync

open Apue.Foundation

/-! ## The arguments -/

/-- What `main` leaves of an argument. -/
def removeSlash (path : Bytes) : Bytes :=
  if path.getLast? = some Path.SLASH then path.dropLast else path

/-- Two strings name the same directory, whatever the files are. -/
def NamesSame (string path : Bytes) : Prop :=
  ∀ (files : Files) (cwd : Place), files.isDirectory [] = true → files.isDirectory cwd = true →
    ∀ place, files.LeadsToDirectory cwd string place ↔ files.LeadsToDirectory cwd path place

/-- The directory that `main` gives to `perform_sync`. -/
def mainDirectory (argument : Bytes) : Bytes := removeSlash (argument.take (MAX_PATH_LEN - 1))

theorem removeSlash_cases (path : Bytes) :
    removeSlash path = path ∨ path = removeSlash path ++ [Path.SLASH] :=
  slash_taken_off path

/-- Only the path of the root loses its meaning. -/
theorem namesSame_iff (path : Bytes) : NamesSame (removeSlash path) path ↔ path ≠ [Path.SLASH] := by
  constructor
  · rintro same rfl
    have root := (same (fun place => if place = [] then some (.directory 0 0) else none) [] rfl rfl
      []).mpr ⟨rfl, rfl⟩
    cases root.1
  · intro notRoot files cwd _ _ place
    rcases removeSlash_cases path with same | joined
    · rw [same]
    generalize removeSlash path = front at joined
    subst joined
    have nonempty : front ≠ [] := by
      rintro rfl
      exact notRoot rfl
    constructor
    · intro leads
      refine ⟨?_, leads.2⟩
      rw [Files.resolve_name leads.1 leads.2 List.not_mem_nil]
      rfl
    · intro leads
      have leadsFront := Files.front_of_resolve nonempty leads.1
      have resolved := leads.1
      rw [Files.resolve_name leadsFront.1 leadsFront.2 List.not_mem_nil, Option.some.injEq] at resolved
      have same : Path.destination cwd front = place := resolved
      rw [← same]
      exact leadsFront

/-! ## Joined paths -/

/-- There is something in front of the last slash, if there is a slash. -/
def TargetSafe (path : Bytes) : Prop := beforeLastSlash path ≠ some []

instance (path : Bytes) : Decidable (TargetSafe path) := inferInstanceAs (Decidable (_ ≠ _))

/-- What is joined to the path is safe, also where it is cut. -/
def Rooted (limit : Nat) (path : Bytes) : Prop :=
  path ≠ [] ∧ (limit ≤ path.length → TargetSafe (path.take limit))

instance (limit : Nat) (path : Bytes) : Decidable (Rooted limit path) :=
  inferInstanceAs (Decidable (_ ∧ _))

section Joined

variable {front path name : Bytes} {limit : Nat}

theorem targetSafe_of_prefix (nonempty : front ≠ []) (isPrefix : front ++ [Path.SLASH] <+: path) :
    TargetSafe path := by
  intro atFront
  induction path using Path.by_last_slash with
  | plain name noSlash =>
      rw [beforeLastSlash_plain noSlash] at atFront
      cases atFront
  | joined before name noSlash _ =>
      rw [beforeLastSlash_join noSlash, Option.some.injEq] at atFront
      subst atFront
      cases front with
      | nil => exact nonempty rfl
      | cons byte rest =>
          rw [List.nil_append, List.cons_append, List.cons_prefix_cons] at isPrefix
          exact noSlash (isPrefix.2.subset (List.mem_append_right _ List.mem_cons_self))

/-- A path that is joined to one with room for the slash. -/
theorem prefix_joinPath (room : path.length < limit) (name : Bytes) :
    path ++ [Path.SLASH] <+: joinPath limit path name := by
  have whole : path ++ [Path.SLASH] = (path ++ Path.SLASH :: name).take (path.length + 1) := by
    rw [List.take_length_add_append]
    rfl
  rw [whole, joinPath]
  exact List.take_prefix_take_left room

theorem joinPath_ne_nil (positive : 0 < limit) (path name : Bytes) : joinPath limit path name ≠ [] := by
  rw [joinPath, ne_eq, List.take_eq_nil_iff, not_or]
  exact ⟨positive.ne', by simp⟩

theorem Rooted.join (rooted : Rooted limit path) (positive : 0 < limit) (name : Bytes) :
    TargetSafe (joinPath limit path name) ∧ Rooted limit (joinPath limit path name) := by
  have safe : TargetSafe (joinPath limit path name) := by
    rcases Nat.lt_or_ge path.length limit with room | full
    · exact targetSafe_of_prefix rooted.1 (prefix_joinPath room name)
    · rw [joinPath_of_le full]
      exact rooted.2 full
  refine ⟨safe, joinPath_ne_nil positive path name, fun _ => ?_⟩
  rw [List.take_of_length_le (joinPath_length_le path name)]
  exact safe

end Joined

/-! ## Runs without undefined behaviour -/

/-- What a call may return. The empty string is no path. -/
def Possible : (call : SysCall) → SysResponse call → Prop
  | .stat path, found => path = [] → found = (none : Option Stat)
  | .access path, there => path = [] → there = false
  | .readDirectory path, names => path = [] → names = (none : Option (List Bytes))
  | .mkdir path, errno => path = [] → errno ≠ (0 : Int) ∧ errno ≠ EEXIST
  | .openRead path, descriptor => path = [] → descriptor = (none : Option Descriptor)
  | .openWrite path, descriptor => path = [] → descriptor = (none : Option Descriptor)
  | _, _ => True

/-- Whatever the calls return, all behaviour is defined, and the result has `post`. -/
abbrev Harmless {Result : Type} (post : Result → Prop) (program : Sys Result) : Prop :=
  program.Always (fun call (_ : Unit) response _ => Possible call response)
    (fun call _ => call ≠ .undefined) (fun result _ => post result) ()

section Harmless

variable {Result Next Item : Type} {post : Result → Prop} {before : Next → Prop}

theorem Harmless.call {call : SysCall} {rest : SysResponse call → Sys Result}
    (isDefined : call ≠ .undefined)
    (answered : ∀ response, Possible call response → Harmless post (rest response)) :
    Harmless post (Program.perform call >>= rest) :=
  Program.Always.call isDefined fun response _ possible => answered response possible

theorem Harmless.bind {program : Sys Next} {rest : Next → Sys Result}
    (first : Harmless before program) (second : ∀ result, before result → Harmless post (rest result)) :
    Harmless post (program >>= rest) :=
  Program.Always.bind (Program.Always.mono first fun result _ holds => second result holds)

theorem BasicProgram.harmless {program : Sys Result} (basic : BasicProgram post program) :
    Harmless post program := by
  apply (Program.Always.mono_step basic fun _ _ _ _ _ => trivial).mono_allowed
  rintro call _ isBasic rfl
  exact isBasic

theorem Harmless.foldlM {body : Result → Item → Sys Result} {items : List Item}
    (each : ∀ item ∈ items, ∀ result, post result → Harmless post (body result item))
    {result : Result} (holds : post result) : Harmless post (items.foldlM body result) := by
  induction items generalizing result with
  | nil => exact holds
  | cons item items hypothesis =>
      rw [List.foldlM_cons]
      apply (each item List.mem_cons_self result holds).bind
      intro between kept
      exact hypothesis (fun other member => each other (List.mem_cons_of_mem _ member)) kept

theorem Harmless.forM {body : Item → Sys PUnit} {items : List Item}
    (each : ∀ item ∈ items, Harmless (fun _ => True) (body item)) :
    Harmless (fun _ => True) (items.forM body) :=
  Program.Always.forM (fun item member _ _ => each item member) trivial

end Harmless

/-- The program may return the result. -/
abbrev MayReturn {Result : Type} (program : Sys Result) (result : Result) : Prop :=
  program.Runs (fun call (_ : Unit) response _ => Possible call response) () result ()

theorem MayReturn.call {Result : Type} {call : SysCall} {next : SysResponse call → Sys Result}
    {result : Result} (response : SysResponse call) (possible : Possible call response)
    (rest : MayReturn (next response) result) : MayReturn (.call call next) result :=
  Program.Runs.call possible rest

/-! ### One file -/

theorem isDirectory_harmless (path : Bytes) : Harmless (fun _ => True) (isDirectory path) := by
  apply Harmless.call SysCall.noConfusion
  intro found _
  cases found with
  | none => trivial
  | some found => trivial

theorem createDirectory_harmless {path : Bytes} (nonempty : path ≠ []) :
    Harmless (fun _ => True) (createDirectory path) := by
  apply Harmless.call SysCall.noConfusion
  intro there _
  split
  · trivial
  dsimp only
  have room : path.take (MAX_PATH_LEN - 1) ≠ [] := by
    rw [ne_eq, List.take_eq_nil_iff, not_or]
    exact ⟨by decide, nonempty⟩
  rw [if_neg room]
  exact BasicProgram.harmless (OnlyCalls.mkdirs (fun _ => trivial) _)

/-- For the empty path `access` fails, and the function reads in front of its buffer. -/
theorem createDirectory_harms {Result : Type} {rest : Bool → Sys Result} {post : Result → Prop} :
    ¬ Harmless post (createDirectory [] >>= rest) := by
  intro harmless
  exact (harmless.2 false () fun _ => rfl).1 rfl

theorem syncFile_harmless (sourceFile : Bytes) {targetFile : Bytes} (safe : TargetSafe targetFile)
    (dryRun : Bool) : Harmless (fun _ => True) (syncFile sourceFile targetFile dryRun) := by
  have outcome : Harmless (fun _ => True) (syncFileOutcome sourceFile targetFile dryRun) := by
    apply (basic_compareFiles sourceFile targetFile).harmless.bind
    intro same _
    split
    · trivial
    split
    · trivial
    split
    · exact (basic_copyFile _ _).harmless.mono fun _ _ _ => trivial
    · rename_i targetDir isFront
      have nonempty : targetDir ≠ [] := by
        rintro rfl
        exact safe isFront
      apply (createDirectory_harmless nonempty).bind
      intro there _
      split
      · exact (basic_copyFile _ _).harmless.mono fun _ _ _ => trivial
      · trivial
  exact outcome.bind fun _ _ => Harmless.call SysCall.noConfusion fun _ _ => trivial

/-- The target is not there, and its directory is the empty string. -/
theorem syncFile_harms (sourceFile : Bytes) {targetFile : Bytes} (bare : ¬ TargetSafe targetFile) :
    ¬ Harmless (fun _ => True) (syncFile sourceFile targetFile false) := by
  intro harmless
  rw [TargetSafe, not_not] at bare
  have absent : MayReturn (compareFiles sourceFile targetFile) false :=
    .call false (fun _ => rfl) (.done false ())
  rw [syncFile, syncFileOutcome, Program.bind_assoc] at harmless
  have rest := harmless.behind absent
  rw [if_neg Bool.false_ne_true, if_neg Bool.false_ne_true, bare] at rest
  dsimp only at rest
  rw [Program.bind_assoc] at rest
  exact createDirectory_harms rest

namespace MultiProcess

theorem basic_compareContents (f1 f2 : Descriptor) (rounds offset : Nat) :
    BasicProgram (fun _ => True) (MultiProcess.compareContents f1 f2 rounds offset) := by
  induction rounds generalizing offset with
  | zero => exact OnlyCalls.outOfRounds (by trivial)
  | succ rounds hypothesis =>
      apply OnlyCalls.call (by trivial)
      intro buffer1
      apply OnlyCalls.call (by trivial)
      intro buffer2
      split
      · trivial
      · split
        · exact hypothesis _
        · trivial

theorem basic_compareFiles (file1 file2 : Bytes) :
    BasicProgram (fun _ => True) (MultiProcess.compareFiles file1 file2) := by
  apply OnlyCalls.call (by trivial)
  intro there
  split
  · trivial
  apply OnlyCalls.bind (basic_getFileSize file1)
  intro size1
  apply OnlyCalls.bind (basic_getFileSize file2)
  intro size2
  split
  · trivial
  apply OnlyCalls.call (by trivial)
  intro f1
  apply OnlyCalls.call (by trivial)
  intro f2
  split
  · rename_i f1 f2
    apply OnlyCalls.bind (MultiProcess.basic_compareContents f1 f2 _ _)
    intro result
    exact OnlyCalls.close (by trivial) (OnlyCalls.close (by trivial) trivial)
  · exact OnlyCalls.close (by trivial) trivial
  · exact OnlyCalls.close (by trivial) trivial
  · trivial

theorem basic_flush (stream : OutStream) (count : Nat) :
    BasicProgram (fun _ => True) (stream.flush count) := by
  rw [OutStream.flush]
  dsimp only
  split
  · trivial
  · exact OnlyCalls.call (by trivial) fun _ => trivial

theorem basic_copyContents (buffering : Buffering) (source : Descriptor) (rounds offset : Nat)
    (target : OutStream) :
    BasicProgram (fun _ => True) (MultiProcess.copyContents buffering source rounds offset target) := by
  induction rounds generalizing offset target with
  | zero => exact OnlyCalls.outOfRounds (by trivial)
  | succ rounds hypothesis =>
      apply OnlyCalls.call (by trivial)
      intro buffer
      split
      · apply OnlyCalls.bind (basic_flush _ _)
        intro written
        rcases written with ⟨accepted, target⟩
        dsimp only
        split
        · trivial
        · exact hypothesis _ _
      · trivial

theorem basic_copyFile (buffering : Buffering) (sourceFile targetFile : Bytes) :
    BasicProgram (fun _ => True) (MultiProcess.copyFile buffering sourceFile targetFile) := by
  apply OnlyCalls.call (by trivial)
  intro source
  split
  · trivial
  apply OnlyCalls.call (by trivial)
  intro target
  split
  · exact OnlyCalls.close (by trivial) trivial
  apply OnlyCalls.bind (MultiProcess.basic_copyContents _ _ _ _ _)
  intro copied
  apply OnlyCalls.close (by trivial)
  apply OnlyCalls.bind
  · apply OnlyCalls.bind (basic_flush _ _)
    intro flushed
    exact OnlyCalls.close (by trivial) trivial
  · exact fun _ => trivial

theorem syncFile_harmless (buffering : Buffering) (sourceFile : Bytes) {targetFile : Bytes}
    (safe : TargetSafe targetFile) :
    Harmless (fun _ => True) (MultiProcess.syncFile buffering sourceFile targetFile) := by
  apply (MultiProcess.basic_compareFiles sourceFile targetFile).harmless.bind
  intro same _
  split
  · trivial
  split
  · exact (MultiProcess.basic_copyFile _ _ _).harmless
  · rename_i targetDir isFront
    have nonempty : targetDir ≠ [] := by
      rintro rfl
      exact safe isFront
    apply (createDirectory_harmless nonempty).bind
    intro there _
    split
    · exact (MultiProcess.basic_copyFile _ _ _).harmless
    · trivial

theorem syncFile_harms (buffering : Buffering) (sourceFile : Bytes) {targetFile : Bytes}
    (bare : ¬ TargetSafe targetFile) :
    ¬ Harmless (fun _ => True) (MultiProcess.syncFile buffering sourceFile targetFile) := by
  intro harmless
  rw [TargetSafe, not_not] at bare
  have absent : MayReturn (MultiProcess.compareFiles sourceFile targetFile) false :=
    .call false (fun _ => rfl) (.done false ())
  rw [MultiProcess.syncFile] at harmless
  have rest := harmless.behind absent
  rw [if_neg Bool.false_ne_true, bare] at rest
  exact createDirectory_harms rest

end MultiProcess

/-! ### The whole -/

/-- The list of files, each with a target that `sync_file` can split. -/
def TargetsSafe (list : FileList) : Prop := ∀ file ∈ list.files, TargetSafe file.targetPath

theorem traverseDirectory_harmless (depth : Nat) (sourcePath targetPath : Bytes) (list : FileList) :
    Harmless (fun after => Rooted JOIN_LIMIT targetPath → TargetsSafe list → TargetsSafe after)
      (traverseDirectory depth sourcePath targetPath list) := by
  induction depth generalizing sourcePath targetPath list with
  | zero => exact ⟨SysCall.noConfusion, fun never => nomatch never⟩
  | succ depth hypothesis =>
      apply Harmless.call SysCall.noConfusion
      intro found _
      cases found with
      | none => exact fun _ safe => safe
      | some names =>
          apply Harmless.foldlM _ (fun _ safe => safe)
          intro name _ between sofar
          split
          · exact sofar
          dsimp only
          apply (isDirectory_harmless _).bind
          intro isDirectory _
          split
          · apply Harmless.call SysCall.noConfusion
            intro _ _
            apply (hypothesis _ _ between).mono
            intro after _ inner rooted safe
            exact inner (rooted.join (by decide) name).2 (sofar rooted safe)
          · apply Harmless.call SysCall.noConfusion
            intro _ _
            apply (basic_getFileSize _).harmless.bind
            intro size _ rooted safe file member
            rcases List.mem_append.mp member with earlier | added
            · exact sofar rooted safe file earlier
            · rw [List.mem_singleton.mp added]
              have short : (joinPath JOIN_LIMIT targetPath name).length ≤ MAX_PATH_LEN - 1 :=
                (joinPath_length_le _ _).trans (by decide)
              dsimp only
              rw [List.take_of_length_le short]
              exact (rooted.join (by decide) name).1

/-- The loop of `sync_directory_structure` over the entries of a directory. -/
theorem subdirectories_harmless (path : Bytes) (names : List Bytes) {recurse : Bytes → Sys Unit}
    (harmless : ∀ path, Harmless (fun _ => True) (recurse path)) :
    Harmless (fun _ => True) (names.forM fun name => do
      if name = Path.DOT ∨ name = Path.DOTDOT then return ()
      let sourceFullPath := joinPath JOIN_LIMIT path name
      if ← isDirectory sourceFullPath then
        Sys.descend path sourceFullPath
        recurse sourceFullPath) := by
  apply Harmless.forM
  intro name _
  split
  · trivial
  dsimp only
  apply (isDirectory_harmless _).bind
  intro isDirectory _
  split
  · apply Harmless.call SysCall.noConfusion
    exact fun _ _ => harmless _
  · trivial

theorem syncDirectoryStructure_harmless (config : SyncConfig) (depth : Nat) (path : Bytes) :
    Harmless (fun _ => True) (syncDirectoryStructure config depth path) := by
  induction depth generalizing path with
  | zero => exact ⟨SysCall.noConfusion, fun never => nomatch never⟩
  | succ depth hypothesis =>
      apply Harmless.call SysCall.noConfusion
      intro found _
      cases found with
      | none => trivial
      | some names =>
          have entries := subdirectories_harmless path names hypothesis
          dsimp only
          split
          · apply (createDirectory_harmless (joinPath_ne_nil (by decide) _ _)).bind
            exact fun _ _ => entries
          · exact entries

theorem reportFiles_harmless (files : List FileInfo) : Harmless (fun _ => True) (reportFiles files) := by
  induction files with
  | nil => trivial
  | cons file files hypothesis =>
      apply (basic_compareFiles _ _).harmless.bind
      intro same _
      split
      · exact Harmless.call SysCall.noConfusion fun _ _ => hypothesis
      · exact hypothesis

/-- Every string that comes to `create_directory` in a run of `perform_sync` is one that
it can work with. The threads call `sync_file` for the files of the list. -/
def RunHarmless (config : SyncConfig) : Prop :=
  ∀ depth, Harmless (fun prepared => ∀ list, prepared = .work list → ∀ file ∈ list.files,
      Harmless (fun _ => True) (syncFile file.sourcePath file.targetPath config.dryRun))
    (prepareSync config depth)

/-- Without a source directory, and in a dry run, nothing is created. Else the target is
not empty, and not cut off behind a slash at its front. -/
def DirectoriesSafe (config : SyncConfig) : Prop :=
  config.sourceDir = [] ∨ config.dryRun = true ∨ Rooted JOIN_LIMIT config.targetDir

theorem runHarmless_of_safe {config : SyncConfig} (safe : DirectoriesSafe config) :
    RunHarmless config := by
  intro depth
  apply Harmless.call SysCall.noConfusion
  intro found possible
  cases found with
  | none => exact nofun
  | some found =>
      dsimp only
      split
      · exact nofun
      have notEmpty : config.sourceDir ≠ [] := fun empty => nomatch possible empty
      have rest : Harmless (fun prepared => ∀ list, prepared = Prepared.work list →
          ∀ file ∈ list.files, Harmless (fun _ => True)
            (syncFile file.sourcePath file.targetPath config.dryRun))
          (do
            let list ← traverseDirectory depth config.sourceDir config.targetDir initFileList
            if list.files.length = 0 then return .returned 1
            if config.dryRun then
              reportFiles list.files
              return .returned 1
            return .work list) := by
        apply (traverseDirectory_harmless depth config.sourceDir config.targetDir initFileList).bind
        intro list listed
        split
        · exact nofun
        split
        · exact (reportFiles_harmless _).bind fun _ _ => nofun
        · rename_i notDry
          intro same isWork file member
          cases isWork
          have rooted := (safe.resolve_left notEmpty).resolve_left notDry
          exact syncFile_harmless _ (listed rooted nofun file member) _
      split
      · rename_i notDry
        rw [Bool.not_eq_true'] at notDry
        have rooted := (safe.resolve_left notEmpty).resolve_left (by rw [notDry]; exact Bool.noConfusion)
        apply (createDirectory_harmless rooted.1).bind
        intro made _
        split
        · exact nofun
        · apply (syncDirectoryStructure_harmless config depth config.sourceDir).bind
          exact fun _ _ => rest
      · exact rest

/-- The threads share a list whose files can be synchronised. -/
def harmlessLogic (Thread : Type) (dryRun : Bool) :
    LocalLogic Thread (WorkerCommand SysCall) (WorkerResponse SysResponse)
      (WorkerState Thread Unit) Unit Unit where
  step := WorkerStep fun call (_ : Unit) response _ => Possible call response
  valid := fun _ state => ∀ file ∈ state.list.files,
    Harmless (fun _ => True) (syncFile file.sourcePath file.targetPath dryRun)
  localOf := fun _ _ => ()
  allowed := fun _ command _ => command ≠ .system .undefined

section Workers

variable {Thread : Type} {dryRun : Bool} {thread : Thread} {Result : Type}

/-- A call of a worker that keeps the list of files. -/
theorem harmless_call {command : WorkerCommand SysCall}
    {rest : WorkerResponse SysResponse command → Worker SysResponse Result}
    (isDefined : command ≠ .system .undefined)
    (keeps : ∀ state response after, WorkerStep (fun call (_ : Unit) response _ => Possible call response)
      thread command state response after → after.list.files = state.list.files)
    (continued : ∀ state response after, WorkerStep (fun call (_ : Unit) response _ => Possible call response)
      thread command state response after → (harmlessLogic Thread dryRun).valid () after →
        (harmlessLogic Thread dryRun).Safe thread (fun _ _ => True) (rest response) ()) :
    (harmlessLogic Thread dryRun).Safe thread (fun _ _ => True) (Program.perform command >>= rest) () := by
  apply LocalLogic.Safe.perform isDefined
  intro _ state valid _ response after stepped
  have validAfter : (harmlessLogic Thread dryRun).valid () after := by
    intro file member
    rw [keeps state response after stepped] at member
    exact valid file member
  exact ⟨(), validAfter, fun _ _ => rfl, continued state response after stepped validAfter⟩

theorem liftSystem_harmless {post : Result → Prop} {program : Sys Result} {Next : Type}
    {rest : Result → Worker SysResponse Next} (harmless : Harmless post program)
    (continued : ∀ result,
      (harmlessLogic Thread dryRun).Safe thread (fun _ _ => True) (rest result) ()) :
    (harmlessLogic Thread dryRun).Safe thread (fun _ _ => True) (liftSystem program >>= rest) () := by
  induction program with
  | done result => exact continued result
  | call call next hypothesis =>
      apply harmless_call
      · intro same
        exact harmless.1 (WorkerCommand.system.inj same)
      · intro state response after stepped
        cases stepped
        rfl
      · intro state response after stepped _
        cases stepped with
        | system performed => exact hypothesis response (harmless.2 response () performed)

theorem workerThread_harmless (rounds : Nat) :
    (harmlessLogic Thread dryRun).Safe thread (fun _ _ => True) (workerThread syncFile dryRun rounds) () := by
  induction rounds with
  | zero => exact ⟨(fun equal => by cases equal), fun _ _ _ _ response => by cases response⟩
  | succ rounds hypothesis =>
      rw [workerThread]
      apply harmless_call (fun equal => by cases equal)
      · intro state response after stepped
        cases stepped with
        | noFile rest empty => rw [(getNextFile_none empty).1]
        | nextFile rest taken =>
            rw [getNextFile] at taken
            cases found : state.list.files[state.list.currentIndex]? with
            | none =>
                rw [found] at taken
                cases taken
            | some file =>
                rw [found] at taken
                cases taken
                rfl
      · intro state response after stepped valid
        cases stepped with
        | noFile => exact trivial
        | @nextFile _ index file rest taken =>
            rw [getNextFile] at taken
            cases found : state.list.files[state.list.currentIndex]? with
            | none =>
                rw [found] at taken
                cases taken
            | some file =>
                rw [found] at taken
                cases taken
                have harmless := valid file (List.mem_of_getElem? found)
                apply harmless_call (fun equal => by cases equal)
                · intro state response after stepped
                  cases stepped
                  rfl
                intro _ _ _ _ _
                split
                · apply harmless_call (fun equal => by cases equal)
                  · intro state response after stepped
                    cases stepped
                    rfl
                  intro _ _ _ _ _
                  apply liftSystem_harmless harmless
                  intro result
                  split
                  · apply harmless_call (fun equal => by cases equal)
                    · intro state response after stepped
                      cases stepped
                      rfl
                    · exact fun _ _ _ _ _ => hypothesis
                  · apply harmless_call (fun equal => by cases equal)
                    · intro state response after stepped
                      cases stepped
                      rfl
                    · exact fun _ _ _ _ _ => hypothesis
                · exact hypothesis

/-- However the threads take turns, none of them comes to undefined behaviour. -/
theorem workers_harmless [DecidableEq Thread] {list : FileList}
    (harmless : ∀ file ∈ list.files,
      Harmless (fun _ => True) (syncFile file.sourcePath file.targetPath dryRun))
    {pool : Pool Thread (WorkerCommand SysCall) (WorkerResponse SysResponse)
      (WorkerState Thread Unit) Unit}
    (reached : Pool.Reachable (WorkerStep fun call (_ : Unit) response _ => Possible call response)
      (startWorkers Thread syncFile dryRun list ()) pool) (thread : Thread)
    {next : Empty → Worker SysResponse Unit} :
    pool.programs thread ≠ .call (.system .undefined) next := by
  have start : (harmlessLogic Thread dryRun).PoolSafe (fun _ _ _ => True)
      (startWorkers Thread syncFile dryRun list ()) :=
    ⟨(), harmless, fun _ => workerThread_harmless _⟩
  rcases start.reachable reached with ⟨_, _, safe⟩
  intro isUndefined
  have mine := safe thread
  rw [isUndefined] at mine
  exact mine.1 rfl

end Workers

/-- The directory of a source with one file whose size cannot be found out. -/
theorem traverseDirectory_lists {source target : Bytes} (nonempty : source ≠ []) (list : FileList) :
    MayReturn (traverseDirectory 1 source target list)
      (addFileToList list (joinPath JOIN_LIMIT source [102]) (joinPath JOIN_LIMIT target [102]) (-1)) := by
  have lists : Possible (.readDirectory source) (some [[102]] : Option (List Bytes)) :=
    fun empty => absurd empty nonempty
  have notThere : ∀ path, Possible (.stat path) (none : Option Stat) := fun _ _ => rfl
  have handed : Possible (.handing source [102] (joinPath JOIN_LIMIT source [102])
    (joinPath JOIN_LIMIT target [102])) () := trivial
  apply MayReturn.call _ lists
  apply MayReturn.call _ (notThere _)
  apply MayReturn.call _ handed
  apply MayReturn.call _ (notThere _)
  exact .done _ ()

theorem createDirectory_returns {path : Bytes} (nonempty : path ≠ []) :
    MayReturn (createDirectory path) true :=
  .call true (fun empty => absurd empty nonempty) (.done true ())

theorem safe_of_runHarmless {config : SyncConfig} (harmless : RunHarmless config) :
    DirectoriesSafe config := by
  by_contra bare
  rw [DirectoriesSafe, not_or, not_or, Bool.not_eq_true] at bare
  rcases bare with ⟨nonempty, notDry, notRooted⟩
  have isDirectory : MayReturn (Sys.stat config.sourceDir) (some ⟨true, 0, 0, 0⟩) :=
    .call (some ⟨true, 0, 0, 0⟩) (fun empty => absurd empty nonempty) (.done _ ())
  have always := harmless 1
  rw [prepareSync] at always
  have found := always.behind isDirectory
  simp only [Bool.not_true, Bool.false_eq_true, if_false, notDry, Bool.not_false, if_true] at found
  rw [Rooted, not_and_or, not_not] at notRooted
  rcases notRooted with empty | cut
  · rw [empty] at found
    exact createDirectory_harms found
  · rw [Classical.not_imp] at cut
    rcases cut with ⟨full, bare⟩
    have targetNonempty : config.targetDir ≠ [] := by
      intro empty
      rw [empty] at full
      exact absurd full (by decide)
    have made := found.behind (createDirectory_returns targetNonempty)
    rw [Bool.not_true, if_neg Bool.false_ne_true] at made
    have unread : MayReturn (syncDirectoryStructure config 1 config.sourceDir) () :=
      .call none (fun _ => rfl) (.done () ())
    have listed := (made.behind unread).behind (traverseDirectory_lists nonempty initFileList)
    have listsOne : ∀ source target size,
        (addFileToList initFileList source target size).files.length ≠ 0 :=
      fun _ _ _ => Nat.succ_ne_zero 0
    rw [if_neg (listsOne _ _ _)] at listed
    have synced := listed _ rfl _ (List.mem_singleton.mpr rfl)
    apply syncFile_harms _ _ synced
    dsimp only
    rw [joinPath_of_le full, List.take_take]
    exact bare

/-! ### The children -/

namespace MultiProcess

/-- A path that is joined, name by name, to the path of a directory. -/
def Listed (source path : Bytes) : Prop :=
  path.length ≤ JOIN_LIMIT ∧
    if source.length < JOIN_LIMIT then source ++ [Path.SLASH] <+: path
    else path = source.take JOIN_LIMIT

theorem Listed.join {source path : Bytes} (listed : path = source ∨ Listed source path) (name : Bytes) :
    Listed source (joinPath JOIN_LIMIT path name) := by
  refine ⟨joinPath_length_le _ _, ?_⟩
  split
  · rename_i room
    rcases listed with rfl | listed
    · exact prefix_joinPath room name
    · have isPrefix := listed.2
      rw [if_pos room] at isPrefix
      rw [joinPath, List.prefix_take_iff]
      refine ⟨isPrefix.trans (List.prefix_append _ _), ?_⟩
      rw [List.length_append, List.length_singleton]
      exact room
  · rename_i full
    rw [Nat.not_lt] at full
    rcases listed with rfl | listed
    · exact joinPath_of_le full name
    · have isCut := listed.2
      rw [if_neg (Nat.not_lt.mpr full)] at isCut
      have fullPath : JOIN_LIMIT ≤ path.length := by
        rw [isCut, List.length_take_of_le full]
      rw [joinPath_of_le fullPath, isCut, List.take_take, Nat.min_self]

/-- The target of a file whose path continues that of the source. -/
theorem workerTarget_joined {config : SyncConfig} {rest : Bytes}
    (short : (config.sourceDir ++ Path.SLASH :: rest).length ≤ JOIN_LIMIT) :
    workerTarget config (config.sourceDir ++ Path.SLASH :: rest) =
      joinPath (MAX_PATH_LEN - 1) config.targetDir rest := by
  have inFront : config.sourceDir.isPrefixOf (config.sourceDir ++ Path.SLASH :: rest) = true :=
    List.isPrefixOf_iff_prefix.mpr (List.prefix_append _ _)
  have shortRest : (Path.SLASH :: rest).length ≤ MAX_PATH_LEN - 1 := by
    rw [List.length_append] at short
    exact (Nat.le_add_left _ _).trans (short.trans (by decide))
  rw [workerTarget, MultiProcess.getRelativePath, if_pos inFront, List.drop_left,
    List.take_of_length_le shortRest, joinPath]

/-- Without a source directory nothing is created. Else the target is not empty, and no
target of a file has its only slash at the front. -/
def DirectoriesSafe (config : SyncConfig) : Prop :=
  config.sourceDir = [] ∨ config.targetDir ≠ [] ∧
    if config.sourceDir.length < JOIN_LIMIT then Rooted (MAX_PATH_LEN - 1) config.targetDir
    else TargetSafe (workerTarget config (config.sourceDir.take JOIN_LIMIT))

theorem Listed.targetSafe {config : SyncConfig} {path : Bytes} (listed : Listed config.sourceDir path)
    (safe : if config.sourceDir.length < JOIN_LIMIT then Rooted (MAX_PATH_LEN - 1) config.targetDir
      else TargetSafe (workerTarget config (config.sourceDir.take JOIN_LIMIT))) :
    TargetSafe (workerTarget config path) := by
  rcases listed with ⟨short, joined⟩
  split at safe
  · rename_i room
    rw [if_pos room] at joined
    rcases joined with ⟨rest, rfl⟩
    rw [List.append_assoc, List.singleton_append] at short ⊢
    rw [workerTarget_joined short]
    exact (safe.join (by decide) rest).1
  · rename_i full
    rw [if_neg full] at joined
    rw [joined]
    exact safe

theorem traverseDirectory_harmless {source : Bytes} (depth : Nat) {path : Bytes}
    (here : path = source ∨ Listed source path) (list : List FileInfo)
    (sofar : ∀ file ∈ list, Listed source file.path) :
    Harmless (fun after => ∀ file ∈ after, Listed source file.path)
      (MultiProcess.traverseDirectory depth path list) := by
  induction depth generalizing path list with
  | zero => exact ⟨SysCall.noConfusion, fun never => nomatch never⟩
  | succ depth hypothesis =>
      apply Harmless.call SysCall.noConfusion
      intro found _
      cases found with
      | none => exact sofar
      | some names =>
          apply Harmless.foldlM _ sofar
          intro name _ between sofar
          split
          · exact sofar
          dsimp only
          have joined := Listed.join here name
          apply (isDirectory_harmless _).bind
          intro isDirectory _
          split
          · apply Harmless.call SysCall.noConfusion
            exact fun _ _ => hypothesis (Or.inr joined) between sofar
          · apply Harmless.call SysCall.noConfusion
            intro _ _
            apply (basic_getFileSize _).harmless.bind
            intro size _ file member
            rcases List.mem_append.mp member with earlier | added
            · exact sofar file earlier
            · rw [List.mem_singleton.mp added]
              dsimp only
              rw [List.take_of_length_le (joined.1.trans (by decide))]
              exact joined

theorem syncDirectoryStructure_harmless (config : SyncConfig) (depth : Nat) (path : Bytes) :
    Harmless (fun _ => True) (MultiProcess.syncDirectoryStructure config depth path) := by
  induction depth generalizing path with
  | zero => exact ⟨SysCall.noConfusion, fun never => nomatch never⟩
  | succ depth hypothesis =>
      apply Harmless.call SysCall.noConfusion
      intro found _
      cases found with
      | none => trivial
      | some names =>
          have entries := subdirectories_harmless path names hypothesis
          dsimp only
          split
          · apply (createDirectory_harmless (joinPath_ne_nil (by decide) _ _)).bind
            exact fun _ _ => entries
          · exact entries

/-- Every string that comes to `create_directory` is one that it can work with. A child
copies its part of the list, and calls `sync_file` for the files of it. -/
def RunHarmless (config : SyncConfig) : Prop :=
  ∀ buffering depth, Harmless (fun prepared => ∀ files, prepared = .work files → ∀ file ∈ files,
      Harmless (fun _ => True) (MultiProcess.syncFile buffering (file.path.take (MAX_PATH_LEN - 1))
        (workerTarget config (file.path.take (MAX_PATH_LEN - 1)))))
    (MultiProcess.prepareSync config depth)

theorem runHarmless_of_safe {config : SyncConfig} (safe : MultiProcess.DirectoriesSafe config) :
    MultiProcess.RunHarmless config := by
  intro buffering depth
  apply Harmless.call SysCall.noConfusion
  intro found possible
  cases found with
  | none => exact nofun
  | some found =>
      dsimp only
      split
      · exact nofun
      have notEmpty : config.sourceDir ≠ [] := fun empty => nomatch possible empty
      rcases safe.resolve_left notEmpty with ⟨targetNonempty, targets⟩
      apply (createDirectory_harmless targetNonempty).bind
      intro made _
      split
      · exact nofun
      apply (MultiProcess.syncDirectoryStructure_harmless config depth config.sourceDir).bind
      intro _ _
      apply (MultiProcess.traverseDirectory_harmless depth (Or.inl rfl) [] nofun).bind
      intro files listed
      split
      · exact nofun
      intro same isWork file member
      cases isWork
      have isListed := listed file member
      rw [List.take_of_length_le (isListed.1.trans (by decide))]
      exact MultiProcess.syncFile_harmless buffering _ (isListed.targetSafe targets)

theorem traverseDirectory_lists {source : Bytes} (nonempty : source ≠ []) :
    MayReturn (MultiProcess.traverseDirectory 1 source [])
      [⟨(joinPath JOIN_LIMIT source [102]).take (MAX_PATH_LEN - 1), -1⟩] := by
  have lists : Possible (.readDirectory source) (some [[102]] : Option (List Bytes)) :=
    fun empty => absurd empty nonempty
  have notThere : ∀ path, Possible (.stat path) (none : Option Stat) := fun _ _ => rfl
  have handed : Possible (.handing source [102] (joinPath JOIN_LIMIT source [102])
    (joinPath JOIN_LIMIT source [102])) () := trivial
  apply MayReturn.call _ lists
  apply MayReturn.call _ (notThere _)
  apply MayReturn.call _ handed
  apply MayReturn.call _ (notThere _)
  exact .done _ ()

/-- The target of the one file is as bad as the directories are. -/
theorem not_targetSafe {config : SyncConfig}
    (bare : ¬ if config.sourceDir.length < JOIN_LIMIT then Rooted (MAX_PATH_LEN - 1) config.targetDir
      else TargetSafe (workerTarget config (config.sourceDir.take JOIN_LIMIT)))
    (targetNonempty : config.targetDir ≠ []) :
    ¬ TargetSafe (workerTarget config (joinPath JOIN_LIMIT config.sourceDir [102])) := by
  split at bare
  · rename_i room
    have listed := (Listed.join (Or.inl rfl) [102] : Listed config.sourceDir _)
    rcases listed with ⟨short, joined⟩
    rw [if_pos room] at joined
    rcases joined with ⟨rest, same⟩
    rw [← same, List.append_assoc, List.singleton_append] at short ⊢
    rw [workerTarget_joined short]
    rw [Rooted, not_and, Classical.not_imp] at bare
    rcases bare targetNonempty with ⟨full, bare⟩
    rw [joinPath_of_le full]
    exact bare
  · rename_i full
    rw [joinPath_of_le (Nat.not_lt.mp full)]
    exact bare

theorem safe_of_runHarmless {config : SyncConfig} (harmless : MultiProcess.RunHarmless config) :
    MultiProcess.DirectoriesSafe config := by
  by_contra bare
  rw [MultiProcess.DirectoriesSafe, not_or] at bare
  rcases bare with ⟨nonempty, bare⟩
  have isDirectory : MayReturn (Sys.stat config.sourceDir) (some ⟨true, 0, 0, 0⟩) :=
    .call (some ⟨true, 0, 0, 0⟩) (fun empty => absurd empty nonempty) (.done _ ())
  have always := harmless (fun _ _ => 0) 1
  rw [MultiProcess.prepareSync] at always
  have found := always.behind isDirectory
  simp only [Bool.not_true, Bool.false_eq_true, if_false] at found
  rcases eq_or_ne config.targetDir [] with empty | targetNonempty
  · rw [empty] at found
    exact createDirectory_harms found
  have made := found.behind (createDirectory_returns targetNonempty)
  rw [Bool.not_true, if_neg Bool.false_ne_true] at made
  have unread : MayReturn (MultiProcess.syncDirectoryStructure config 1 config.sourceDir) () :=
    .call none (fun _ => rfl) (.done () ())
  have listed := (made.behind unread).behind (MultiProcess.traverseDirectory_lists nonempty)
  rw [if_neg (by exact Nat.succ_ne_zero 0)] at listed
  have synced := listed _ rfl _ (List.mem_singleton.mpr rfl)
  apply MultiProcess.syncFile_harms _ _ _ synced
  have short : (joinPath JOIN_LIMIT config.sourceDir [102]).length ≤ MAX_PATH_LEN - 1 :=
    (joinPath_length_le _ _).trans (by decide)
  dsimp only
  rw [List.take_of_length_le short, List.take_of_length_le short]
  exact not_targetSafe (fun safe => bare ⟨targetNonempty, safe⟩) targetNonempty

end MultiProcess

/-! ## Both programs -/

/-- The arguments keep their meaning, and nothing undefined happens, unless one of them is
the root or the directories are not safe. -/
theorem arguments_harmless_iff {source target : Bytes} (shortSource : source.length < MAX_PATH_LEN)
    (shortTarget : target.length < MAX_PATH_LEN) (threadCount processCount : Nat) (dryRun : Bool) :
    (NamesSame (mainDirectory source) source ∧ NamesSame (mainDirectory target) target ∧
        RunHarmless ⟨mainDirectory source, mainDirectory target, threadCount, dryRun⟩ ↔
      source ≠ [Path.SLASH] ∧ target ≠ [Path.SLASH] ∧
        DirectoriesSafe ⟨mainDirectory source, mainDirectory target, threadCount, dryRun⟩) ∧
    (NamesSame (mainDirectory source) source ∧ NamesSame (mainDirectory target) target ∧
        MultiProcess.RunHarmless ⟨mainDirectory source, mainDirectory target, processCount⟩ ↔
      source ≠ [Path.SLASH] ∧ target ≠ [Path.SLASH] ∧
        MultiProcess.DirectoriesSafe ⟨mainDirectory source, mainDirectory target, processCount⟩) := by
  have sameSource : NamesSame (mainDirectory source) source ↔ source ≠ [Path.SLASH] := by
    rw [mainDirectory, take_of_short shortSource]
    exact namesSame_iff source
  have sameTarget : NamesSame (mainDirectory target) target ↔ target ≠ [Path.SLASH] := by
    rw [mainDirectory, take_of_short shortTarget]
    exact namesSame_iff target
  rw [sameSource, sameTarget]
  exact ⟨and_congr_right' (and_congr_right' ⟨safe_of_runHarmless, runHarmless_of_safe⟩),
    and_congr_right' (and_congr_right'
      ⟨MultiProcess.safe_of_runHarmless, MultiProcess.runHarmless_of_safe⟩)⟩

theorem arguments_harmless_iff_short :
    (NamesSame (mainDirectory [115, 47]) [115, 47] ∧ NamesSame (mainDirectory [47, 116]) [47, 116] ∧
        RunHarmless ⟨mainDirectory [115, 47], mainDirectory [47, 116], 4, false⟩ ↔
      ([115, 47] : Bytes) ≠ [Path.SLASH] ∧ ([47, 116] : Bytes) ≠ [Path.SLASH] ∧
        DirectoriesSafe ⟨mainDirectory [115, 47], mainDirectory [47, 116], 4, false⟩) ∧
    (NamesSame (mainDirectory [115, 47]) [115, 47] ∧ NamesSame (mainDirectory [47, 116]) [47, 116] ∧
        MultiProcess.RunHarmless ⟨mainDirectory [115, 47], mainDirectory [47, 116], 4⟩ ↔
      ([115, 47] : Bytes) ≠ [Path.SLASH] ∧ ([47, 116] : Bytes) ≠ [Path.SLASH] ∧
        MultiProcess.DirectoriesSafe ⟨mainDirectory [115, 47], mainDirectory [47, 116], 4⟩) :=
  arguments_harmless_iff (by decide) (by decide) 4 4 false

/-- The root as the target becomes the empty string, which `perform_sync` gives to
`create_directory`. -/
theorem root_argument_harms :
    (¬ NamesSame (mainDirectory [Path.SLASH]) [Path.SLASH]) ∧
      (¬ RunHarmless ⟨mainDirectory [115], mainDirectory [Path.SLASH], 4, false⟩) ∧
      ¬ MultiProcess.RunHarmless ⟨mainDirectory [115], mainDirectory [Path.SLASH], 4⟩ := by
  refine ⟨fun same => (namesSame_iff [Path.SLASH]).mp same rfl, fun harmless => ?_,
    fun harmless => ?_⟩
  · rcases safe_of_runHarmless harmless with empty | dry | rooted
    · cases empty
    · cases dry
    · exact rooted.1 rfl
  · rcases MultiProcess.safe_of_runHarmless harmless with empty | safe
    · cases empty
    · exact safe.1 rfl

end Apue.Sync
