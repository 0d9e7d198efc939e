import Apue.Sync.Directories
import Mathlib.Data.List.TakeWhile

/-! # What the creation of a directory is worth

`create_directory` and `create_directory_recursive` with calls of `mkdir` that may fail
for any reason.
-/

namespace Apue.Sync

open Apue.Foundation

variable {cwd place : Place} {front name path rung : Bytes}

/-! ## Fronts of a path -/

theorem mem_slashPrefixes :
    rung ∈ slashPrefixes path ↔ rung ≠ [] ∧ rung ++ [Path.SLASH] <+: path := by
  rw [slashPrefixes, List.mem_filterMap]
  constructor
  · intro found
    rcases found with ⟨length, within, same⟩
    rw [List.mem_range] at within
    rw [Option.ite_none_right_eq_some, Option.some.injEq] at same
    rcases same with ⟨⟨positive, isSlash⟩, rfl⟩
    constructor
    · intro empty
      have none := congrArg List.length empty
      rw [List.length_take, List.length_nil] at none
      omega
    · have longer : path.take (length + 1) = path.take length ++ [Path.SLASH] := by
        rw [List.take_add_one, isSlash]
        rfl
      rw [← longer]
      exact List.take_prefix _ _
  · intro isPrefix
    rcases isPrefix with ⟨nonempty, back, rfl⟩
    refine ⟨rung.length, ?_, ?_⟩
    · rw [List.mem_range]
      simp
    · rw [if_pos ⟨List.length_pos_iff.mpr nonempty, by simp⟩]
      simp

theorem trimSlashes_isPrefix (path : Bytes) : trimSlashes path <+: path := by
  rw [trimSlashes, ← List.reverse_suffix, List.reverse_reverse]
  exact List.dropWhile_suffix _

theorem slashPrefixes_mono {longer : Bytes} (isPrefix : path <+: longer)
    (member : rung ∈ slashPrefixes path) : rung ∈ slashPrefixes longer := by
  rw [mem_slashPrefixes] at member ⊢
  exact ⟨member.1, member.2.trans isPrefix⟩

theorem beforeLastSlash_plain (noSlash : Path.SLASH ∉ name) : beforeLastSlash name = none := by
  have all : name.reverse.dropWhile (· ≠ Path.SLASH) = [] := by
    rw [List.dropWhile_eq_nil_iff]
    intro byte member
    rw [decide_eq_true_eq]
    rintro rfl
    exact noSlash (List.mem_reverse.mp member)
  rw [beforeLastSlash, all]

theorem beforeLastSlash_join (noSlash : Path.SLASH ∉ name) :
    beforeLastSlash (front ++ Path.SLASH :: name) = some front := by
  have behind : (front ++ Path.SLASH :: name).reverse.dropWhile (· ≠ Path.SLASH) =
      Path.SLASH :: front.reverse := by
    rw [List.reverse_append, List.reverse_cons, List.append_assoc, List.dropWhile_append_of_pos]
    · rfl
    · intro byte member
      rw [decide_eq_true_eq]
      rintro rfl
      exact noSlash (List.mem_reverse.mp member)
  rw [beforeLastSlash, behind]
  dsimp only
  rw [List.reverse_reverse]

/-- What a path leads through is a directory. -/
theorem isDirectory_of_resolve {files : Files} (resolved : files.resolve cwd path = some place)
    (member : rung ∈ slashPrefixes path) :
    files.isDirectory (Path.destination cwd rung) = true := by
  rw [mem_slashPrefixes] at member
  rcases member with ⟨nonempty, back, rfl⟩
  rw [List.append_assoc] at resolved
  exact (Files.front_of_resolve nonempty resolved).2

/-- A path with nothing but slashes leads to the root. -/
theorem resolve_slashes {files : Files} (root : files.isDirectory [] = true) (nonempty : path ≠ [])
    (slashes : trimSlashes path = []) : files.resolve cwd path = some [] := by
  induction path using Path.by_last_slash with
  | plain name noSlash =>
      have same := trimSlashes_plain nonempty noSlash []
      rw [List.nil_append, slashes] at same
      exact absurd same.symm nonempty
  | joined front name noSlash hypothesis =>
      rcases eq_or_ne name [] with rfl | notEmpty
      · rcases eq_or_ne front [] with rfl | frontNonempty
        · exact Files.resolve_root root noSlash
        · rw [trimSlashes_slash] at slashes
          rw [Files.resolve_name (hypothesis frontNonempty slashes) root noSlash]
          rfl
      · have same := trimSlashes_join notEmpty noSlash front
        rw [slashes] at same
        exact absurd same.symm (by simp)

/-- What is a directory without the slashes at the end is one with them. -/
theorem leads_of_mkdirPath {files : Files} (leads : files.LeadsToDirectory cwd (mkdirPath path) place) :
    files.LeadsToDirectory cwd path place := by
  induction path using Path.by_last_slash with
  | plain name noSlash =>
      rcases eq_or_ne name [] with rfl | nonempty
      · exact leads
      · have same := mkdirPath_plain nonempty noSlash []
        rw [List.nil_append] at same
        rw [same] at leads
        exact leads
  | joined front name noSlash hypothesis =>
      rcases eq_or_ne name [] with rfl | nonempty
      · rcases mkdirPath_slash front with same | ⟨nonempty, same⟩
        · rw [same] at leads
          exact leads
        · rw [same] at leads
          have leadsFront := hypothesis leads
          refine ⟨?_, leads.2⟩
          rw [Files.resolve_name leadsFront.1 leadsFront.2 noSlash]
          rfl
      · have same := mkdirPath_join nonempty noSlash front
        rw [same] at leads
        exact leads

/-! ## Calls of `mkdir` that fail -/

/-- The files, and the paths that `mkdir` has failed for, where it was for another reason
than that there is something already. -/
structure Making where
  system : SysState
  failed : List Bytes

inductive Makes : (call : SysCall) → Making → SysResponse call → Making → Prop
  | answers {call : SysCall} {before : Making} {response : SysResponse call} {after : SysState}
      (answered : Answers call before.system response after) :
      Makes call before response { before with system := after }
  | accessFails (path : Bytes) (before : Making) : Makes (.access path) before false before
  | mkdirFails {errno : Int} (path : Bytes) (before : Making) (fails : errno ≠ 0)
      (other : errno ≠ EEXIST) :
      Makes (.mkdir path) before errno { before with failed := before.failed ++ [path] }

/-- The path itself, or what is in front of one of its slashes. -/
def IsRung (path rung : Bytes) : Prop := rung = path ∨ rung ++ [Path.SLASH] <+: path

/-- Nothing is called but `access` for the path and `mkdir` for its rungs. -/
def CallsRungs (path : Bytes) : SysCall → Making → Prop
  | .access other, _ => other = path
  | .mkdir rung, _ => IsRung path rung
  | _, _ => False

/-- What the creation of a directory tells is true. -/
structure Creates (path : Bytes) (before : SysState) (success : Prop) (after : Making) : Prop where
  directory : success → ∃ place,
    after.system.files.LeadsToDirectory after.system.cwd path place
  grown : Grown (fun place => ∃ rung, IsRung path rung ∧ place = Path.destination before.cwd rung)
    before after.system
  fails : ¬ success → ∃ rung ∈ after.failed, IsRung path rung

/-- The names of a path lead to a regular file. -/
def NamesFile (state : SysState) (path : Bytes) : Prop :=
  ∃ file, state.files (Path.destination state.cwd path) = some (.regular file)

/-- There is a regular file in place of the directory, and none on the way to it. -/
structure FileInstead (state : SysState) (path : Bytes) : Prop where
  isFile : NamesFile state path
  way : ∀ rung ∈ slashPrefixes (trimSlashes path), ¬ NamesFile state rung

section Making

variable {ways : Place → Prop} {state before after : SysState} {tmp : Bytes}

theorem Grown.namesFile (grown : Grown ways before after) (isFile : NamesFile before path) :
    after.files.isDirectory (Path.destination after.cwd path) = false := by
  rcases isFile with ⟨file, there⟩
  rw [grown.sameCwd, Files.isDirectory, grown.there there]

/-- What is found at the end is a directory, unless a regular file was there. -/
theorem directory_of_found (root : after.files.isDirectory [] = true) (nonempty : path ≠ [])
    (grown : Grown ways before after) (notInstead : ¬ FileInstead before path)
    (found : trimSlashes path ≠ [] → (after.lookup (trimSlashes path)).isSome = true) :
    ∃ place, after.files.LeadsToDirectory after.cwd path place := by
  by_cases slashes : trimSlashes path = []
  · exact ⟨[], resolve_slashes root nonempty slashes, root⟩
  have isPath : mkdirPath path = trimSlashes path := by rw [mkdirPath, if_neg slashes]
  rcases Option.isSome_iff_exists.mp (found slashes) with ⟨⟨place, node⟩, isThere⟩
  rcases Files.lookup_eq_some.mp isThere with ⟨resolved, there⟩
  cases node with
  | directory size mtime =>
      refine ⟨place, leads_of_mkdirPath ⟨?_, Files.isDirectory_iff.mpr ⟨size, mtime, there⟩⟩⟩
      rw [isPath]
      exact resolved
  | regular file =>
      have leads := Files.resolve_eq resolved
      rw [← isPath, destination_mkdirPath, grown.sameCwd] at leads
      have was : before.files place = some (.regular file) := by
        rcases grown.files place with same | ⟨_, _, directory⟩
        · rw [← same]
          exact there
        · rw [Files.isDirectory, there] at directory
          cases directory
      refine absurd ⟨⟨file, leads ▸ was⟩, fun rung member isFile => ?_⟩ notInstead
      have directory := isDirectory_of_resolve resolved member
      rw [grown.namesFile isFile] at directory
      cases directory

theorem mkdirs_makes {paths : List Bytes} {before : Making} (areRungs : ∀ rung ∈ paths, IsRung path rung) :
    (mkdirs paths).Always Makes (CallsRungs path)
      (fun result after =>
        Grown (fun place => ∃ rung, IsRung path rung ∧
          place = Path.destination before.system.cwd rung) before.system after.system ∧
        (result = true → ∀ rung ∈ paths, (after.system.lookup (mkdirPath rung)).isSome = true) ∧
        (¬ result = true → ∃ rung ∈ after.failed, IsRung path rung)) before := by
  induction paths generalizing before with
  | nil => exact ⟨Grown.refl _ _, fun _ _ member => absurd member List.not_mem_nil,
      fun failed => absurd rfl failed⟩
  | cons rung paths hypothesis =>
      have isRung := areRungs rung List.mem_cons_self
      have called : CallsRungs path (.mkdir rung) before := isRung
      rw [mkdirs]
      apply Program.Always.call called
      intro errno between answered
      cases answered with
      | mkdirFails _ _ fails other =>
          rw [if_pos ⟨fails, other⟩]
          exact ⟨Grown.refl _ _, fun succeeds => Bool.noConfusion succeeds, fun _ =>
            ⟨rung, List.mem_append_right _ (List.mem_singleton.mpr rfl), isRung⟩⟩
      | answers answered =>
          rcases answers_mkdir answered with ⟨made, first, there⟩
          rw [if_neg (fun failed => made.elim failed.1 failed.2)]
          apply Program.Always.mono (hypothesis fun other member =>
            areRungs other (List.mem_cons_of_mem _ member))
          intro result after outcome
          rcases outcome with ⟨second, found, failed⟩
          dsimp only at second
          rw [first.sameCwd] at second
          refine ⟨?_, ?_, failed⟩
          · apply Grown.trans _ second
            apply first.mono
            intro place isPlace
            exact ⟨rung, isRung, isPlace⟩
          · intro succeeds other member
            rcases List.mem_cons.mp member with same | behind
            · rw [same]
              exact second.isSome there
            · exact found succeeds other behind

/-- A path, and the path that is left of it when a slash at the end is taken off. -/
theorem slash_taken_off (path : Bytes) :
    (if path.getLast? = some Path.SLASH then path.dropLast else path) = path ∨
      path = (if path.getLast? = some Path.SLASH then path.dropLast else path) ++ [Path.SLASH] := by
  split
  · rename_i last
    rcases List.eq_nil_or_concat path with rfl | ⟨front, byte, rfl⟩
    · cases last
    · rw [List.concat_eq_append, List.getLast?_concat, Option.some.injEq] at last
      rw [List.concat_eq_append, List.dropLast_concat, last]
      exact Or.inr rfl
  · exact Or.inl rfl

theorem ladder_isRung (off : tmp = path ∨ path = tmp ++ [Path.SLASH]) :
    ∀ rung ∈ ladder tmp, IsRung path rung := by
  intro rung member
  rcases List.mem_append.mp member with front | last
  · have isPrefix := (mem_slashPrefixes.mp front).2
    rcases off with rfl | same
    · exact Or.inr isPrefix
    · rw [same]
      exact Or.inr (isPrefix.trans (List.prefix_append _ _))
  · rw [List.mem_singleton.mp last]
    rcases off with same | same
    · exact Or.inl same
    · rw [same]
      exact Or.inr (List.prefix_refl _)

theorem ladder_creates (root : state.files.isDirectory [] = true) (nonempty : path ≠ [])
    (notInstead : ¬ FileInstead state path) (off : tmp = path ∨ path = tmp ++ [Path.SLASH]) :
    (mkdirs (ladder tmp)).Always Makes (CallsRungs path)
      (fun result after => Creates path state (result = true) after) ⟨state, []⟩ := by
  apply (mkdirs_makes (ladder_isRung off)).mono
  intro result after outcome
  rcases outcome with ⟨grown, found, failed⟩
  refine ⟨fun succeeds => ?_, grown, failed⟩
  apply directory_of_found (grown.isDirectory root) nonempty grown notInstead
  intro notSlashes
  have sameTrimmed : trimSlashes tmp = trimSlashes path := by
    rcases off with same | same
    · rw [same]
    · rw [same, trimSlashes_slash]
  have isThere := found succeeds tmp (List.mem_append_right _ (List.mem_singleton.mpr rfl))
  rw [mkdirPath, sameTrimmed, if_neg notSlashes] at isThere
  exact isThere

/-! ## A regular file in place of the directory -/

theorem mkdirs_append (paths more : List Bytes) :
    mkdirs (paths ++ more) = mkdirs paths >>= fun made => if made then mkdirs more else return false := by
  induction paths with
  | nil => rfl
  | cons path paths hypothesis =>
      rw [List.cons_append, mkdirs, mkdirs, Program.bind_assoc]
      congr 1
      funext errno
      split
      · rfl
      · exact hypothesis

theorem exists_mkdir (resolved : state.files.resolve state.cwd (mkdirPath path) = some place) :
    ∃ response after, Answers (.mkdir path) state response after := by
  cases there : state.files place with
  | none => exact ⟨_, _, .mkdir 0 0 resolved there⟩
  | some node => exact ⟨_, _, .mkdirExists (Files.lookup_eq_some.mpr ⟨resolved, there⟩)⟩

/-- Every call can be answered without a failure. -/
abbrev Answerable {Value : Type} (post : Value → SysState → Prop) (program : Sys Value)
    (state : SysState) : Prop :=
  program.Always Answers (fun call between => ∃ response after, Answers call between response after)
    post state

theorem mkdir_answerable (resolved : state.files.resolve state.cwd (mkdirPath path) = some place) :
    Answerable (fun _ _ => True) (mkdirs [path]) state := by
  apply Program.Always.call (exists_mkdir resolved)
  intro errno after _
  split
  · trivial
  · trivial

/-- Without regular files on the way every rung can be made. -/
theorem ladder_answerable (root : state.files.isDirectory [] = true)
    (directory : state.files.isDirectory state.cwd = true) (nonempty : path ≠ [])
    (way : ∀ rung ∈ slashPrefixes (trimSlashes path), ¬ NamesFile state rung) :
    Answerable (fun _ _ => True) (mkdirs (ladder path)) state := by
  induction path using Path.by_last_slash with
  | plain name noSlash =>
      have same := mkdirPath_plain nonempty noSlash []
      rw [List.nil_append] at same
      rw [ladder_plain noSlash]
      apply mkdir_answerable
      rw [same]
      exact Files.resolve_plain directory nonempty noSlash
  | joined front name noSlash hypothesis =>
      rcases eq_or_ne front [] with rfl | frontNonempty
      · rw [List.nil_append, ladder_root noSlash]
        apply mkdir_answerable
        have same : mkdirPath (Path.SLASH :: name) = Path.SLASH :: name := by
          rcases eq_or_ne name [] with rfl | notEmpty
          · rfl
          · exact mkdirPath_plain notEmpty noSlash [Path.SLASH]
        rw [same]
        exact Files.resolve_root root noSlash
      rw [ladder_join frontNonempty noSlash, mkdirs_append]
      apply Program.Always.bind
      have wayFront : ∀ rung ∈ slashPrefixes (trimSlashes front), ¬ NamesFile state rung := by
        intro rung member
        apply way
        rcases eq_or_ne name [] with rfl | notEmpty
        · rw [trimSlashes_slash]
          exact member
        · have same := trimSlashes_join notEmpty noSlash front
          rw [same]
          exact slashPrefixes_mono ((trimSlashes_isPrefix front).trans (List.prefix_append _ _)) member
      have made : (mkdirs (ladder front)).Always Answers (fun call _ => call ≠ .outOfRounds)
          (fun result after => result = true ∧ Grown (fun _ => True) state after ∧
            ∀ rung ∈ ladder front, (after.lookup (mkdirPath rung)).isSome = true) state :=
        mkdirs_always fun _ _ => trivial
      apply (((hypothesis frontNonempty wayFront).and made).mono_allowed fun _ _ both => both.1).mono
      intro result between outcome
      rcases outcome with ⟨_, rfl, grown, found⟩
      have rootBetween := grown.isDirectory root
      rw [if_pos rfl]
      rcases Option.isSome_iff_exists.mp
        (found front (List.mem_append_right _ (List.mem_singleton.mpr rfl))) with ⟨⟨place, node⟩, isThere⟩
      rcases Files.lookup_eq_some.mp isThere with ⟨resolved, there⟩
      rcases eq_or_ne name [] with rfl | notEmpty
      · rcases mkdirPath_slash front with same | ⟨_, same⟩
        · by_cases slashes : trimSlashes (front ++ [Path.SLASH]) = []
          · apply mkdir_answerable
            rw [same]
            exact resolve_slashes rootBetween (by simp) slashes
          · rw [mkdirPath, if_neg slashes, trimSlashes_slash] at same
            have short := congrArg List.length same
            have long := (trimSlashes_isPrefix front).length_le
            rw [List.length_append, List.length_singleton] at short
            omega
        · apply mkdir_answerable
          rw [same]
          exact resolved
      · have isDirectory : between.files.isDirectory place = true := by
          cases node with
          | directory size mtime => exact Files.isDirectory_iff.mpr ⟨size, mtime, there⟩
          | regular file =>
              have leads := Files.resolve_eq resolved
              rw [destination_mkdirPath, grown.sameCwd] at leads
              have same := trimSlashes_join notEmpty noSlash front
              have member : front ∈ slashPrefixes (trimSlashes (front ++ Path.SLASH :: name)) := by
                rw [same, mem_slashPrefixes]
                refine ⟨frontNonempty, name, ?_⟩
                rw [List.append_assoc, List.singleton_append]
              refine absurd ⟨file, ?_⟩ (way front member)
              rw [← leads]
              rcases grown.files place with unchanged | ⟨_, _, directory⟩
              · rw [← unchanged]
                exact there
              · rw [Files.isDirectory, there] at directory
                cases directory
        have leadsFront := leads_of_mkdirPath ⟨resolved, isDirectory⟩
        have same := mkdirPath_join notEmpty noSlash front
        apply mkdir_answerable
        rw [same]
        exact Files.resolve_name leadsFront.1 leadsFront.2 noSlash

/-- Where nothing on the way is a regular file, the directory is made up to its name. -/
theorem FileInstead.ladder_answerable (instead : FileInstead state path) (nonempty : path ≠ [])
    (root : state.files.isDirectory [] = true) (directory : state.files.isDirectory state.cwd = true)
    (off : tmp = path ∨ path = tmp ++ [Path.SLASH]) :
    Answerable (fun result after => result = true ∧ Grown (fun _ => True) state after)
      (mkdirs (ladder tmp)) state := by
  have tmpNonempty : tmp ≠ [] := by
    rintro rfl
    rcases off with same | same
    · exact nonempty same.symm
    · rcases instead.isFile with ⟨file, there⟩
      have isRoot : Path.destination state.cwd path = [] := by
        rw [same]
        rfl
      rw [Files.isDirectory, ← isRoot, there] at root
      cases root
  have sameTrimmed : trimSlashes tmp = trimSlashes path := by
    rcases off with same | same
    · rw [same]
    · rw [same, trimSlashes_slash]
  have made : (mkdirs (ladder tmp)).Always Answers (fun call _ => call ≠ .outOfRounds)
      (fun result after => result = true ∧ Grown (fun _ => True) state after ∧
        ∀ rung ∈ ladder tmp, (after.lookup (mkdirPath rung)).isSome = true) state :=
    mkdirs_always fun _ _ => trivial
  have answerable := Apue.Sync.ladder_answerable root directory tmpNonempty
    (by rw [sameTrimmed]; exact instead.way)
  apply ((answerable.and made).mono_allowed fun _ _ both => both.1).mono
  exact fun _ _ outcome => ⟨outcome.2.1, outcome.2.2.1⟩

/-- A run without failures tells of a directory where there is none. -/
theorem FileInstead.not_creates {Value : Type} {program : Sys Value} {success : Value → Prop}
    {allowed : SysCall → Making → Prop} (instead : FileInstead state path)
    (succeeds : Answerable (fun result after => success result ∧ Grown (fun _ => True) state after)
      program state) :
    ¬ program.Always Makes allowed (fun result after => Creates path state (success result) after)
      ⟨state, []⟩ := by
  intro always
  rcases succeeds.exists_run (fun _ _ => id) with ⟨result, after, run, isSuccess, grown⟩
  have answers : ∀ call before response after, Answers call before response after →
      Makes call ⟨before, []⟩ response ⟨after, []⟩ := fun _ _ _ _ answered => .answers answered
  rcases (always.result (run.map answers)).directory isSuccess with ⟨place, resolved, isDirectory⟩
  rw [Files.resolve_eq resolved] at isDirectory
  rw [grown.namesFile instead.isFile] at isDirectory
  cases isDirectory

end Making

/-! ## The two functions -/

section Functions

variable {state : SysState}

/-- A path that is short enough is copied whole. -/
theorem take_of_short (short : path.length < MAX_PATH_LEN) : path.take (MAX_PATH_LEN - 1) = path :=
  List.take_of_length_le (Nat.le_sub_one_of_lt short)

theorem createDirectory_makes (root : state.files.isDirectory [] = true) (nonempty : path ≠ [])
    (short : path.length < MAX_PATH_LEN) (notInstead : ¬ FileInstead state path) :
    (createDirectory path).Always Makes (CallsRungs path)
      (fun result after => Creates path state (result = true) after) ⟨state, []⟩ := by
  have called : CallsRungs path (.access path) ⟨state, []⟩ := rfl
  rw [createDirectory, take_of_short short]
  apply Program.Always.call called
  intro there after answered
  have unchanged : after = ⟨state, []⟩ ∧ (there = true → (state.lookup path).isSome = true) := by
    cases answered with
    | accessFails => exact ⟨rfl, fun isThere => Bool.noConfusion isThere⟩
    | answers answered =>
        rcases answers_access answered with ⟨rfl, rfl⟩
        exact ⟨rfl, id⟩
  rcases unchanged with ⟨rfl, found⟩
  split
  · rename_i isThere
    rcases Option.isSome_iff_exists.mp (found isThere) with ⟨⟨place, node⟩, same⟩
    refine ⟨fun _ => ?_, Grown.refl _ _, fun failed => absurd rfl failed⟩
    apply directory_of_found root nonempty (Grown.refl (fun _ => True) state) notInstead
    intro notSlashes
    rcases Files.lookup_eq_some.mp same with ⟨resolved, isNode⟩
    have trimmed := resolve_mkdirPath resolved
    rw [mkdirPath, if_neg notSlashes] at trimmed
    rw [SysState.lookup, Files.lookup_eq_some.mpr ⟨trimmed, isNode⟩]
    rfl
  · dsimp only
    rw [if_neg nonempty]
    exact ladder_creates root nonempty notInstead (slash_taken_off path)

theorem FileInstead.createDirectory_answerable (instead : FileInstead state path) (nonempty : path ≠ [])
    (root : state.files.isDirectory [] = true) (directory : state.files.isDirectory state.cwd = true)
    (short : path.length < MAX_PATH_LEN) :
    Answerable (fun result after => result = true ∧ Grown (fun _ => True) state after)
      (createDirectory path) state := by
  rw [createDirectory, take_of_short short]
  apply Program.Always.call ⟨_, _, .access path state⟩
  intro there after answered
  cases answered
  split
  · exact ⟨rfl, Grown.refl _ _⟩
  · dsimp only
    rw [if_neg nonempty]
    exact instead.ladder_answerable nonempty root directory (slash_taken_off path)

theorem FileInstead.createDirectoryRecursive_answerable (instead : FileInstead state path)
    (nonempty : path ≠ []) (root : state.files.isDirectory [] = true)
    (directory : state.files.isDirectory state.cwd = true) (short : path.length < MAX_PATH_LEN) :
    Answerable (fun result after => result = 0 ∧ Grown (fun _ => True) state after)
      (SimpleRsync.createDirectoryRecursive path) state := by
  rw [SimpleRsync.createDirectoryRecursive, take_of_short short]
  dsimp only
  rw [if_neg nonempty]
  apply Program.Always.bind
  apply (instead.ladder_answerable nonempty root directory (slash_taken_off path)).mono
  intro result after outcome
  rcases outcome with ⟨rfl, grown⟩
  exact ⟨rfl, grown⟩

end Functions

/-- A regular file `/f`. -/
def fileAtRoot : SysState where
  files := fun place =>
    if place = [[102]] then some (.regular ⟨[], 0, 420⟩)
    else if place = [] then some (.directory 0 0)
    else none
  cwd := []
  opened := []
  reported := []
  outcomes := []

end Apue.Sync
