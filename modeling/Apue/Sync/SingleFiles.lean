import Apue.Sync.MakingDirectories
import Apue.Sync.PartialCopies
import Mathlib.Data.List.DropRight

/-! # One file that is new

`sync_file` of the simple synchroniser makes the directories above a file before it
copies the file. It has `dirname` find them, and goes by what that leaves in the path.
-/

namespace Apue.Sync

open Apue.Foundation

/-! ## Calls that succeed where they can -/

/-- What a call returns that cannot do what it should. -/
def Refusal : (call : SysCall) → SysResponse call → Prop
  | .mkdir _, errno => errno ≠ (0 : Int) ∧ errno ≠ EEXIST
  | call, response => Failure call response

inductive Succeeds : (call : SysCall) → SysState → SysResponse call → SysState → Prop
  | answers {call : SysCall} {before after : SysState} {response : SysResponse call}
      (answered : Answers call before response after) : Succeeds call before response after
  | refused {call : SysCall} {before : SysState} {response : SysResponse call}
      (impossible : ∀ answer after, ¬ Answers call before answer after)
      (refusal : Refusal call response) : Succeeds call before response before

theorem Answerable.succeeds {Value : Type} {post : Value → SysState → Prop} {program : Sys Value}
    {state : SysState} (answerable : Answerable post program state) :
    program.Always Succeeds (fun call between => ∃ response after, Succeeds call between response after)
      post state := by
  induction program generalizing state with
  | done value => exact answerable
  | call call next hypothesis =>
      rcases answerable.1 with ⟨response, after, answered⟩
      refine ⟨⟨response, after, .answers answered⟩, fun other last succeeded => ?_⟩
      cases succeeded with
      | answers given => exact hypothesis other (answerable.2 other last given)
      | refused impossible => exact absurd answered (impossible response after)

theorem Succeeds.faulty {call : SysCall} {before after : SysState} {response : SysResponse call}
    (succeeded : Succeeds call before response after) : Faulty call before response after := by
  cases succeeded with
  | answers answered => exact .answers answered
  | refused _ refusal =>
      apply Faulty.fails
      cases call with
      | mkdir path => exact refusal.1
      | _ => exact refusal

/-! ## Paths of new files -/

/-- A regular file can be created at the path once the directories above it are there. -/
structure Creatable (state : SysState) (path : Bytes) : Prop where
  named : ∃ name, Path.Proper name ∧ (path = name ∨ ∃ front, path = front ++ Path.SLASH :: name)
  way : ∀ rung ∈ slashPrefixes path, ¬ NamesFile state rung
  absent : state.files (Path.destination state.cwd path) = none
  apart : ∀ rung ∈ slashPrefixes path,
    Path.destination state.cwd rung ≠ Path.destination state.cwd path

theorem Creatable.statOf {state : SysState} {path : Bytes} (creatable : Creatable state path) :
    state.statOf path = none := by
  rw [SysState.statOf, Option.map_eq_none_iff, Option.eq_none_iff_forall_ne_some]
  intro found isThere
  rcases found with ⟨place, node⟩
  rcases Files.lookup_eq_some.mp isThere with ⟨resolved, there⟩
  rw [Files.resolve_eq resolved, creatable.absent] at there
  cases there

/-- The file has the bytes, and no directory is new but for those above it. -/
structure CreatedFile (before : SysState) (path data : Bytes) (result : Int) (after : SysState) :
    Prop where
  returns : result = 0
  file : ∃ copy : RegularFile, copy.data = data ∧
    after.lookup path = some (Path.destination before.cwd path, .regular copy)
  directories : ∀ place, after.files.isDirectory place = true →
    before.files.isDirectory place = true ∨
      before.files place = none ∧
        ∃ rung ∈ slashPrefixes path, place = Path.destination before.cwd rung

/-- There is a slash, and what is in front of the last one is a slash or has a name. -/
def SplitsOff (path : Bytes) : Prop :=
  ∃ front, beforeLastSlash path = some front ∧ (front = [Path.SLASH] ∨ trimSlashes front ≠ [])

namespace SimpleRsync

section Dirname

variable {front name path : Bytes}

theorem dirname_plain (nonempty : name ≠ []) (noSlash : Path.SLASH ∉ name) : dirname name = name := by
  have trimmed := trimSlashes_plain nonempty noSlash []
  rw [List.nil_append] at trimmed
  rw [dirname]
  dsimp only
  rw [trimmed, if_neg nonempty, beforeLastSlash_plain noSlash]

theorem dirname_join (nonempty : name ≠ []) (noSlash : Path.SLASH ∉ name) :
    dirname (front ++ Path.SLASH :: name) =
      if trimSlashes front = [] then
        if front.length = 1 then [Path.SLASH, Path.SLASH] else [Path.SLASH]
      else trimSlashes front := by
  rw [dirname]
  dsimp only
  rw [trimSlashes_join nonempty noSlash, if_neg (by simp), beforeLastSlash_join noSlash]

theorem trimSlashes_trimSlashes (path : Bytes) : trimSlashes (trimSlashes path) = trimSlashes path := by
  rw [trimSlashes, trimSlashes, List.reverse_reverse, List.dropWhile_idempotent]

/-- Behind the last name there is a slash, if there is anything. -/
theorem trimSlashes_slash_isPrefix (path : Bytes) :
    trimSlashes path ++ [Path.SLASH] <+: path ++ [Path.SLASH] := by
  induction path using Path.by_last_slash with
  | plain name noSlash =>
      rcases eq_or_ne name [] with rfl | nonempty
      · exact List.prefix_refl _
      · have same := trimSlashes_plain nonempty noSlash []
        rw [List.nil_append] at same
        rw [same]
  | joined front name noSlash hypothesis =>
      rcases eq_or_ne name [] with rfl | nonempty
      · rw [trimSlashes_slash]
        exact hypothesis.trans (List.prefix_append _ _)
      · rw [trimSlashes_join nonempty noSlash]

end Dirname

/-! ## The directories above -/

section Parents

variable {state : SysState} {target : Bytes}

/-- The root, and what is in front of the slashes of a path. -/
def Above (cwd : Place) (path : Bytes) (place : Place) : Prop :=
  place = [] ∨ ∃ rung ∈ slashPrefixes path, place = Path.destination cwd rung

/-- The directories are made, and the path leads to a place for the file. -/
def ParentsMade (before : SysState) (path : Bytes) (after : SysState) : Prop :=
  Grown (Above before.cwd path) before after ∧
    after.files.resolve after.cwd path = some (Path.destination before.cwd path)

theorem createDirectoryRecursive_slashes (root : state.files.isDirectory [] = true) :
    Answerable (fun result after => result = 0 ∧ Grown (fun place => place = []) state after)
      (createDirectoryRecursive [Path.SLASH, Path.SLASH]) state := by
  have resolved : state.files.resolve state.cwd (mkdirPath [Path.SLASH]) = some [] :=
    resolve_slashes root (by decide) rfl
  have made : (mkdirs [[Path.SLASH]]).Always Answers (fun call _ => call ≠ .outOfRounds)
      (fun result after => result = true ∧ Grown (fun place => place = []) state after ∧
        ∀ path ∈ [[Path.SLASH]], (after.lookup (mkdirPath path)).isSome = true) state := by
    apply mkdirs_always
    intro path member
    rw [List.mem_singleton.mp member]
    rfl
  have program : createDirectoryRecursive [Path.SLASH, Path.SLASH] =
      mkdirs [[Path.SLASH]] >>= fun made => if made then return 0 else return -1 := rfl
  rw [program]
  apply Program.Always.bind
  apply (((mkdir_answerable resolved).and made).mono_allowed fun _ _ both => both.1).mono
  intro result after outcome
  rcases outcome with ⟨_, rfl, grown, _⟩
  exact ⟨rfl, grown⟩

/-- There is no slash at the end that could be taken off. -/
theorem noSlash_taken_off {path : Bytes} (trimmed : trimSlashes path = path) :
    (if path.getLast? = some Path.SLASH then path.dropLast else path) = path := by
  rcases slash_taken_off path with same | same
  · exact same
  · have shorter := (trimSlashes_isPrefix
      (if path.getLast? = some Path.SLASH then path.dropLast else path)).length_le
    have lengths := congrArg List.length same
    rw [← trimSlashes_slash, ← same, trimmed] at shorter
    rw [List.length_append, List.length_singleton] at lengths
    omega

/-- What is made for the directory of a file is in front of slashes of its path. -/
theorem ladder_trimSlashes {front name rung : Bytes} (notSlashes : trimSlashes front ≠ [])
    (member : rung ∈ ladder (trimSlashes front)) :
    rung ∈ slashPrefixes (front ++ Path.SLASH :: name) := by
  have isPrefix : front ++ [Path.SLASH] <+: front ++ Path.SLASH :: name := ⟨name, by simp⟩
  rcases List.mem_append.mp member with higher | last
  · apply slashPrefixes_mono _ higher
    exact (trimSlashes_isPrefix front).trans (List.prefix_append _ _)
  · rw [List.mem_singleton.mp last, mem_slashPrefixes]
    exact ⟨notSlashes, (trimSlashes_slash_isPrefix front).trans isPrefix⟩

/-- The directories up to a path without a slash at the end. -/
theorem createDirectoryRecursive_ladder {path : Bytes} (root : state.files.isDirectory [] = true)
    (directory : state.files.isDirectory state.cwd = true) (nonempty : path ≠ [])
    (short : path.length < MAX_PATH_LEN) (trimmed : trimSlashes path = path)
    (way : ∀ rung ∈ ladder path, ¬ NamesFile state rung) :
    Answerable (fun result after => result = 0 ∧
        Grown (fun place => ∃ rung ∈ ladder path, place = Path.destination state.cwd rung) state after ∧
        ∃ place, after.files.LeadsToDirectory after.cwd path place)
      (createDirectoryRecursive path) state := by
  have answerable := ladder_answerable root directory nonempty fun rung member => by
    rw [trimmed] at member
    exact way rung (List.mem_append_left _ member)
  have made : (mkdirs (ladder path)).Always Answers (fun call _ => call ≠ .outOfRounds)
      (fun result after => result = true ∧
        Grown (fun place => ∃ rung ∈ ladder path, place = Path.destination state.cwd rung) state after ∧
        ∀ rung ∈ ladder path, (after.lookup (mkdirPath rung)).isSome = true) state :=
    mkdirs_always fun rung member => ⟨rung, member, rfl⟩
  rw [createDirectoryRecursive, take_of_short short]
  dsimp only
  rw [if_neg nonempty, noSlash_taken_off trimmed]
  apply Program.Always.bind
  apply ((answerable.and made).mono_allowed fun _ _ both => both.1).mono
  intro result after outcome
  rcases outcome with ⟨_, rfl, grown, found⟩
  refine ⟨rfl, grown, ?_⟩
  apply directory_of_found (grown.isDirectory root) nonempty grown
  · intro instead
    exact way path (List.mem_append_right _ (List.mem_singleton.mpr rfl)) instead.isFile
  · intro notSlashes
    have isThere := found path (List.mem_append_right _ (List.mem_singleton.mpr rfl))
    rw [mkdirPath, if_neg notSlashes] at isThere
    exact isThere

/-- Where the path splits, the directories above the file are made. -/
theorem parents_made (root : state.files.isDirectory [] = true)
    (directory : state.files.isDirectory state.cwd = true) (short : target.length < MAX_PATH_LEN)
    (creatable : Creatable state target) (splits : SplitsOff target) :
    Answerable (fun result after => result = 0 ∧ ParentsMade state target after)
      (createDirectoryRecursive (dirname target)) state := by
  rcases splits with ⟨front, isFront, shape⟩
  rcases creatable.named with ⟨name, proper, rfl | ⟨before, rfl⟩⟩
  · rw [beforeLastSlash_plain proper.noSlash] at isFront
    cases isFront
  rw [beforeLastSlash_join proper.noSlash, Option.some.injEq] at isFront
  subst isFront
  rw [dirname_join proper.nonempty proper.noSlash]
  have leads : ∀ after : SysState, ∀ place, after.cwd = state.cwd →
      after.files.LeadsToDirectory after.cwd before place →
      after.files.resolve after.cwd (before ++ Path.SLASH :: name) =
        some (Path.destination state.cwd (before ++ Path.SLASH :: name)) := by
    intro after place sameCwd leadsBefore
    have resolved := Files.resolve_name leadsBefore.1 leadsBefore.2 proper.noSlash
    have same := Files.resolve_eq resolved
    rw [sameCwd] at same
    rw [resolved, same]
  rcases eq_or_ne (trimSlashes before) [] with slashes | notSlashes
  · rcases shape with rfl | notSlashes
    · apply (createDirectoryRecursive_slashes root).mono
      intro result after outcome
      rcases outcome with ⟨isZero, grown⟩
      refine ⟨isZero, grown.mono fun place isRoot => Or.inl isRoot, ?_⟩
      apply leads after [] grown.sameCwd
      exact ⟨resolve_slashes (grown.isDirectory root) (by decide) rfl, grown.isDirectory root⟩
    · exact absurd slashes notSlashes
  · rw [if_neg notSlashes]
    have inFront : ∀ rung ∈ ladder (trimSlashes before),
        rung ∈ slashPrefixes (before ++ Path.SLASH :: name) :=
      fun rung member => ladder_trimSlashes notSlashes member
    have shortFront : (trimSlashes before).length < MAX_PATH_LEN := by
      have lengths := (trimSlashes_isPrefix before).length_le
      rw [List.length_append] at short
      omega
    apply (createDirectoryRecursive_ladder root directory notSlashes shortFront
      (trimSlashes_trimSlashes before) fun rung member => creatable.way rung (inFront rung member)).mono
    intro result after outcome
    rcases outcome with ⟨isZero, grown, place, leadsTrimmed⟩
    refine ⟨isZero, grown.mono fun place isRung => ?_, ?_⟩
    · rcases isRung with ⟨rung, member, rfl⟩
      exact Or.inr ⟨rung, inFront rung member, rfl⟩
    · apply leads after place grown.sameCwd
      apply leads_of_mkdirPath
      rw [mkdirPath, if_neg notSlashes]
      exact leadsTrimmed

/-! ## The file -/

variable {place : Place} {file : RegularFile} {source : Bytes}

/-- A program that runs alone, with every call answered, and leaves the directories. -/
abbrev keepingDirectories : Conduct SysCall SysState where
  rely := Eq
  guarantee := fun before after => ∀ place, after.files.isDirectory place = before.files.isDirectory place
  answered := fun _ => True

theorem works_keepingDirectories {there : Place} (different : place ≠ there) :
    Works keepingDirectories source target place there file :=
  Works.alone different (fun _ _ => rfl)
    (fun _ _ changed found => SysState.setNode_isDirectory
      (SysState.isDirectory_of_regular (Files.lookup_eq_some.mp found).2) changed)
    fun _ copy _ notDirectory => SysState.setNode_isDirectory notDirectory copy

theorem looks_keepingDirectories (state : SysState) :
    Looks keepingDirectories fun other => other = state :=
  Looks.alone (fun _ _ => rfl) state

theorem answerable_of_follows {Value : Type} {post : Value → SysState → Prop} {program : Sys Value}
    (follows : keepingDirectories.Follows Answers post program state) :
    Answerable (fun result after => post result after ∧
      ∀ place, after.files.isDirectory place = state.files.isDirectory place) program state := by
  have guaranteed := Conduct.Follows.guaranteed (fun _ _ => rfl)
    (fun _ _ _ first second place => (second place).trans (first place)) follows
  exact (guaranteed.always fun _ => rfl).mono_allowed fun _ _ answered => answered trivial

theorem absent_between {between : SysState} (root : state.files.isDirectory [] = true)
    (creatable : Creatable state target) (grown : Grown (Above state.cwd target) state between) :
    between.files (Path.destination state.cwd target) = none := by
  rcases grown.files (Path.destination state.cwd target) with same | ⟨_, above, _⟩
  · rw [same]
    exact creatable.absent
  rcases above with isRoot | ⟨rung, member, same⟩
  · rw [Files.isDirectory, ← isRoot, creatable.absent] at root
    cases root
  · exact absurd same.symm (creatable.apart rung member)

theorem copyFile_creates (root : state.files.isDirectory [] = true)
    (directory : state.files.isDirectory state.cwd = true) (short : target.length < MAX_PATH_LEN)
    (reads : state.lookup source = some (place, .regular file))
    (creatable : Creatable state target) (splits : SplitsOff target) :
    Answerable (fun result after => CreatedFile state target file.data result after)
      (SimpleRsync.copyFile source target) state := by
  have different : place ≠ Path.destination state.cwd target := by
    rintro rfl
    have there := (Files.lookup_eq_some.mp reads).2
    rw [creatable.absent] at there
    cases there
  rw [SimpleRsync.copyFile, if_neg (Nat.not_le.mpr short)]
  apply Program.Always.bind
  apply (parents_made root directory short creatable splits).mono
  intro result between outcome
  rcases outcome with ⟨rfl, grown, resolved⟩
  rw [if_neg (by decide)]
  have absent := absent_between root creatable grown
  have notDirectory : between.files.isDirectory (Path.destination state.cwd target) = false := by
    rw [Files.isDirectory, absent]
  have copied : keepingDirectories.Follows Answers (fun result after => result = 0 ∧
      ∃ copy, copy.data = file.data ∧
        Writing source target place (Path.destination state.cwd target) file copy after)
      (copyFileData source target) between := by
    apply copyFileData_follows (works_keepingDirectories different) (looks_keepingDirectories between)
      _ _ _ rfl
    · rintro other rfl
      exact grown.lookup reads
    · rintro other rfl
      rw [grown.sameCwd]
    · rintro _ other rfl
      exact ⟨resolved, notDirectory⟩
  apply Program.Always.bind
  apply (answerable_of_follows copied).mono
  intro result after outcome
  rcases outcome with ⟨⟨rfl, copy, whole, writing⟩, sameDirectories⟩
  rw [if_neg (by decide)]
  apply Program.Always.bind
  apply (answerable_of_follows
    (copyFileAttributes_follows (works_keepingDirectories different) writing)).mono
  intro result last outcome
  rcases outcome with ⟨⟨rfl, written⟩, sameAgain⟩
  rw [if_neg (by decide)]
  refine ⟨rfl, ⟨{ file with data := copy.data }, whole, written.writes⟩, fun other isDirectory => ?_⟩
  rw [sameAgain, sameDirectories] at isDirectory
  rcases grown.files other with same | ⟨missing, above, _⟩
  · rw [Files.isDirectory, same] at isDirectory
    exact Or.inl isDirectory
  rcases above with rfl | isRung
  · exact Or.inl root
  · exact Or.inr ⟨missing, isRung⟩

/-- The destination is not there, and there is nothing to compare. -/
theorem syncFile_creates (root : state.files.isDirectory [] = true)
    (directory : state.files.isDirectory state.cwd = true) (short : target.length < MAX_PATH_LEN)
    (reads : state.lookup source = some (place, .regular file))
    (creatable : Creatable state target) (splits : SplitsOff target) :
    Answerable (fun result after => CreatedFile state target file.data result after)
      (SimpleRsync.syncFile source target false) state := by
  apply Program.Always.call ⟨_, _, .stat source state⟩
  intro found after answered
  rcases answers_stat answered with ⟨rfl, rfl⟩
  rw [statOf_of_lookup reads]
  apply Program.Always.bind
  apply Program.Always.call ⟨_, _, .stat target _⟩
  intro found after answered
  rcases answers_stat answered with ⟨rfl, rfl⟩
  rw [creatable.statOf]
  exact copyFile_creates root directory short reads creatable splits

/-! ## Paths that do not split -/

/-- `mkdir` fails for the empty path. -/
theorem createDirectoryRecursive_slash (state : SysState) :
    (createDirectoryRecursive [Path.SLASH]).Always Succeeds (fun _ _ => True)
      (fun result _ => result = -1) state := by
  have program : createDirectoryRecursive [Path.SLASH] =
      mkdirs [[]] >>= fun made => if made then return 0 else return -1 := rfl
  rw [program]
  apply Program.Always.bind
  apply Program.Always.call trivial
  intro errno after succeeded
  cases succeeded with
  | answers answered =>
      cases answered with
      | mkdirExists found => cases found
      | mkdir _ _ resolved => cases resolved
  | refused _ refusal =>
      split
      · exact rfl
      · rename_i noRefusal
        exact absurd refusal noRefusal

/-- What is a directory cannot be opened for writing. -/
theorem copyFileData_fails {there : Place} (leads : state.files.LeadsToDirectory state.cwd target there) :
    (copyFileData source target).Always Succeeds (fun _ _ => True) (fun result _ => result = -1)
      state := by
  apply Program.Always.call trivial
  intro srcFd after opened
  cases faulty_quiet (by trivial) opened.faulty
  cases srcFd with
  | none => exact rfl
  | some srcFd =>
      apply Program.Always.call trivial
      intro dstFd last succeeded
      cases succeeded with
      | refused _ refusal =>
          cases dstFd with
          | some dstFd => cases refusal
          | none => exact ⟨trivial, fun _ _ _ => rfl⟩
      | answers answered =>
          have notRegular : ∀ place, state.files.resolve state.cwd target = some place →
              state.files.isDirectory place = true := by
            intro place resolved
            rw [leads.1, Option.some.injEq] at resolved
            rw [← resolved]
            exact leads.2
          cases answered with
          | openExisting number now found =>
              rcases Files.lookup_eq_some.mp found with ⟨resolved, there⟩
              have directory := notRegular _ resolved
              rw [Files.isDirectory, there] at directory
              cases directory
          | openNew number now resolved absent =>
              have directory := notRegular _ resolved
              rw [Files.isDirectory, absent] at directory
              cases directory

/-- For a path like `/f` or `///f` the directory is made of nothing. -/
theorem dirname_unsplit {front name : Bytes} (nonempty : name ≠ []) (noSlash : Path.SLASH ∉ name)
    (unsplit : ¬ SplitsOff (front ++ Path.SLASH :: name)) :
    dirname (front ++ Path.SLASH :: name) = [Path.SLASH] := by
  have shape : ¬ (front = [Path.SLASH] ∨ trimSlashes front ≠ []) :=
    fun shape => unsplit ⟨front, beforeLastSlash_join noSlash, shape⟩
  rw [not_or, not_not] at shape
  have notOne : front.length ≠ 1 := by
    intro one
    rcases List.length_eq_one_iff.mp one with ⟨byte, rfl⟩
    have different : Path.SLASH ∉ [byte] := by
      intro member
      rw [List.mem_singleton.mp member] at shape
      exact shape.1 rfl
    have same := trimSlashes_plain (List.cons_ne_nil byte []) different []
    rw [List.nil_append, shape.2] at same
    cases same
  rw [dirname_join nonempty noSlash, if_pos shape.2, if_neg notOne]

theorem copyFile_fails (root : state.files.isDirectory [] = true)
    (directory : state.files.isDirectory state.cwd = true) (short : target.length < MAX_PATH_LEN)
    (creatable : Creatable state target) (unsplit : ¬ SplitsOff target) :
    (SimpleRsync.copyFile source target).Always Succeeds (fun _ _ => True)
      (fun result _ => result = -1) state := by
  rw [SimpleRsync.copyFile, if_neg (Nat.not_le.mpr short)]
  apply Program.Always.bind
  rcases creatable.named with ⟨name, proper, rfl | ⟨front, rfl⟩⟩
  · have way : ∀ rung ∈ ladder target, ¬ NamesFile state rung := by
      intro rung member isFile
      rw [ladder_plain proper.noSlash, List.mem_singleton] at member
      rcases isFile with ⟨file, there⟩
      rw [member, creatable.absent] at there
      cases there
    have trimmed := trimSlashes_plain proper.nonempty proper.noSlash []
    rw [List.nil_append] at trimmed
    have made := (createDirectoryRecursive_ladder root directory proper.nonempty short trimmed
      way).succeeds
    rw [dirname_plain proper.nonempty proper.noSlash]
    apply (made.mono_allowed fun _ _ _ => trivial).mono
    intro result between outcome
    rcases outcome with ⟨rfl, _, place, leads⟩
    rw [if_neg (by decide)]
    apply Program.Always.bind
    apply (copyFileData_fails leads).mono
    intro result after isFailure
    rw [if_pos isFailure]
    exact rfl
  · rw [dirname_unsplit proper.nonempty proper.noSlash unsplit]
    apply (createDirectoryRecursive_slash state).mono
    intro result after isFailure
    rw [if_pos isFailure]
    exact rfl

theorem syncFile_fails (root : state.files.isDirectory [] = true)
    (directory : state.files.isDirectory state.cwd = true) (short : target.length < MAX_PATH_LEN)
    (creatable : Creatable state target) (unsplit : ¬ SplitsOff target) :
    (SimpleRsync.syncFile source target false).Always Succeeds (fun _ _ => True)
      (fun result _ => result = -1) state := by
  apply Program.Always.call trivial
  intro found after looked
  cases faulty_quiet (by trivial) looked.faulty
  cases found with
  | none => exact rfl
  | some found =>
      apply Program.Always.bind
      apply Program.Always.call trivial
      intro there after succeeded
      cases succeeded with
      | refused impossible => exact absurd (.stat target _) (impossible _ _)
      | answers answered =>
          rcases answers_stat answered with ⟨rfl, rfl⟩
          rw [creatable.statOf]
          exact copyFile_fails root directory short creatable unsplit

theorem not_always_created (root : state.files.isDirectory [] = true)
    (directory : state.files.isDirectory state.cwd = true) (short : target.length < MAX_PATH_LEN)
    (creatable : Creatable state target) (unsplit : ¬ SplitsOff target) {data : Bytes} :
    ¬ (SimpleRsync.syncFile source target false).Always Succeeds
      (fun call between => ∃ response after, Succeeds call between response after)
      (fun result after => CreatedFile state target data result after) state := by
  intro always
  rcases (always.and (syncFile_fails root directory short creatable unsplit)).exists_run
    (fun _ _ both => both.1) with ⟨result, after, _, created, isFailure⟩
  rw [isFailure] at created
  exact absurd created.returns (by decide)

/-- A new file is synchronised exactly where there is a slash in its path and what is in
front of the last one is a slash or has a name. -/
theorem syncFile_creates_iff (root : state.files.isDirectory [] = true)
    (directory : state.files.isDirectory state.cwd = true) (short : target.length < MAX_PATH_LEN)
    (reads : state.lookup source = some (place, .regular file)) (creatable : Creatable state target) :
    (SimpleRsync.syncFile source target false).Always Succeeds
        (fun call between => ∃ response after, Succeeds call between response after)
        (fun result after => CreatedFile state target file.data result after) state ↔
      SplitsOff target := by
  constructor
  · intro always
    by_contra unsplit
    exact not_always_created root directory short creatable unsplit always
  · exact fun splits => (syncFile_creates root directory short reads creatable splits).succeeds

end Parents

/-! ### The file `/a` -/

/-- `/d/b` is new, and so is the directory above it. -/
theorem syncFile_creates_iff_below :
    (SimpleRsync.syncFile [47, 97] [47, 100, 47, 98] false).Always Succeeds
        (fun call between => ∃ response after, Succeeds call between response after)
        (fun result after => CreatedFile oneFile [47, 100, 47, 98] threeBytes.data result after)
        oneFile ↔
      SplitsOff [47, 100, 47, 98] := by
  have rungs : slashPrefixes [47, 100, 47, 98] = [[47, 100]] := by decide
  apply @syncFile_creates_iff oneFile _ [[97]] threeBytes _ rfl rfl (by decide) rfl
  refine ⟨⟨[98], by decide, Or.inr ⟨[47, 100], rfl⟩⟩, fun rung member isFile => ?_, rfl,
    fun rung member => ?_⟩
  · rw [rungs, List.mem_singleton] at member
    rw [member] at isFile
    rcases isFile with ⟨file, there⟩
    cases there
  · rw [rungs, List.mem_singleton] at member
    rw [member]
    decide

/-- For the destination `b` a directory is made that is called `b`. -/
theorem syncFile_makes_directory : ¬ (SimpleRsync.syncFile [47, 97] [98] false).Always Succeeds
    (fun call between => ∃ response after, Succeeds call between response after)
    (fun result after => CreatedFile oneFile [98] threeBytes.data result after) oneFile := by
  have none : slashPrefixes [98] = [] := by decide
  apply not_always_created rfl rfl (by decide)
  · refine ⟨⟨[98], by decide, Or.inl rfl⟩, fun rung member => ?_, rfl, fun rung member => ?_⟩
    · rw [none] at member
      cases member
    · rw [none] at member
      cases member
  · rintro ⟨front, isFront, _⟩
    cases isFront

end SimpleRsync

end Apue.Sync
