import Apue.Foundation.Buffers
import Apue.Foundation.FileTree

/-! # Walks through a directory tree

`myftw` and `dopath` of `filedir/ftw8.c` with `path_alloc` of `lib/pathalloc.c`. All levels of the
recursion share one buffer for the path.
-/

namespace Apue.Filedir.TreeWalks

open Apue.Foundation Ascii Path

structure Stat where
  st_mode : Nat
  deriving DecidableEq

def S_IFMT : Nat := 0o170000
def S_IFDIR : Nat := 0o040000

def S_ISDIR (st_mode : Nat) : Bool := st_mode &&& S_IFMT = S_IFDIR

def NAME_MAX : Nat := 255
def PATH_MAX_GUESS : Nat := 1024

/-- What `pathconf` returns. -/
inductive PathLimit
  | limit (value : Nat)
  | indeterminate
  | failed

/-- What the calls of the system return. `malloc` and `realloc` fail or return memory with any
contents. `opendir` and `readdir` are taken together: a directory that can be opened has a list of
names. -/
structure System where
  PATH_MAX : Option Nat
  pathconf : PathLimit
  posix_version : Int
  xsi_version : Int
  malloc : Nat → Option (Nat → Byte)
  realloc : Nat → Option (Nat → Byte)
  lstat : Bytes → Option Stat
  opendir : Bytes → Option (List Bytes)

inductive FileType
  | FTW_F
  | FTW_D
  | FTW_DNR
  | FTW_NS
  deriving DecidableEq

/-- A call of the callback. `statbuf` has nothing in it where `lstat` failed. -/
structure Call where
  path : Bytes
  statbuf : Option Stat
  type : FileType
  deriving DecidableEq

/-- The callback may depend on the calls before: it gets all of them, the present one last. -/
abbrev Myfunc := List Call → Int

/-- Why a walk does not return: it writes outside the buffer, it exits because there is no memory,
or its bound on the depth is too small. -/
inductive Stop
  | overflow
  | exit
  | unfinished
  deriving DecidableEq

/-- The static variables, and the calls so far. -/
structure Walk where
  fullpath : Bytes
  pathlen : Nat
  calls : List Call

def contents (memory : Nat → Byte) (from_ upto : Nat) : Bytes :=
  (List.range' from_ (upto - from_)).map memory

def pathMax (system : System) : Except Stop Nat :=
  match system.PATH_MAX with
  | some pathmax => .ok pathmax
  | none =>
      match system.pathconf with
      | .limit value => .ok (value + 1)
      | .indeterminate => .ok PATH_MAX_GUESS
      | .failed => .error .exit

def pathAlloc (system : System) : Except Stop Walk := do
  let pathmax ← pathMax system
  let size := if system.posix_version < 200112 ∧ system.xsi_version < 4 then pathmax + 1 else pathmax
  match system.malloc size with
  | none => .error .exit
  | some memory => .ok { fullpath := contents memory 0 size, pathlen := size, calls := [] }

def expand (system : System) (walk : Walk) (pathlen : Nat) : Except Stop Walk :=
  match system.realloc pathlen with
  | none => .error .exit
  | some memory => .ok { walk with
      fullpath := walk.fullpath ++ contents memory walk.fullpath.length pathlen
      pathlen := pathlen }

/-- The buffer is made larger where it is too small. -/
def enlarge (system : System) (tooSmall : Bool) (pathlen : Nat) (walk : Walk) : Except Stop Walk :=
  if tooSmall then expand system walk pathlen else .ok walk

def store (walk : Walk) (index : Nat) (bytes : Bytes) : Except Stop Walk :=
  match putBytes bytes (walk.fullpath, index) with
  | none => .error .overflow
  | some (fullpath, _) => .ok { walk with fullpath := fullpath }

def strcpy (walk : Walk) (index : Nat) (string : Bytes) : Except Stop Walk :=
  store walk index (string ++ [0])

def report (func : Myfunc) (walk : Walk) (statbuf : Option Stat) (type : FileType) : Walk × Int :=
  let calls := walk.calls ++ [⟨cString walk.fullpath, statbuf, type⟩]
  ({ walk with calls := calls }, func calls)

/-- `dopath` puts a slash behind a path of length `n`. -/
def addSlash (system : System) (walk : Walk) (n : Nat) : Except Stop Walk := do
  let walk ← enlarge system (n + NAME_MAX + 2 > walk.pathlen) (walk.pathlen * 2) walk
  let walk ← store walk n [SLASH]
  store walk (n + 1) [0]

/-- The loop of `dopath` over the names of a directory. -/
def readNames (recurse : Walk → Except Stop (Walk × Int)) (n : Nat) :
    List Bytes → Int → Walk → Except Stop (Walk × Int)
  | [], ret, walk => .ok (walk, ret)
  | d_name :: names, ret, walk =>
      if d_name = DOT ∨ d_name = DOTDOT then readNames recurse n names ret walk
      else do
        let walk ← strcpy walk n d_name
        let (walk, ret) ← recurse walk
        if ret ≠ 0 then return (walk, ret)
        readNames recurse n names ret walk

/-- The part of `dopath` for a directory that the callback does not end the walk at. -/
def descend (system : System) (func : Myfunc) (recurse : Walk → Except Stop (Walk × Int))
    (statbuf : Stat) (n : Nat) (ret : Int) (walk : Walk) : Except Stop (Walk × Int) := do
  let walk ← addSlash system walk n
  match system.opendir (cString walk.fullpath) with
  | none => return report func walk (some statbuf) .FTW_DNR
  | some names => do
      let (walk, ret) ← readNames recurse (n + 1) names ret walk
      let walk ← store walk n [0]
      return (walk, ret)

def dopath (system : System) (func : Myfunc) : Nat → Walk → Except Stop (Walk × Int)
  | 0, _ => .error .unfinished
  | depth + 1, walk =>
      match system.lstat (cString walk.fullpath) with
      | none => .ok (report func walk none .FTW_NS)
      | some statbuf =>
          if S_ISDIR statbuf.st_mode = false then .ok (report func walk (some statbuf) .FTW_F)
          else
            let (walk, ret) := report func walk (some statbuf) .FTW_D
            if ret ≠ 0 then .ok (walk, ret)
            else
              descend system func (dopath system func depth) statbuf (cString walk.fullpath).length ret
                walk

def myftw (system : System) (func : Myfunc) (depth : Nat) (pathname : Bytes) :
    Except Stop (Walk × Int) := do
  let walk ← pathAlloc system
  let walk ← enlarge system (walk.pathlen ≤ pathname.length) (pathname.length * 2) walk
  let walk ← strcpy walk 0 pathname
  dopath system func depth walk

/-! ## Trees -/

mutual

/-- What there is under a path. -/
inductive Tree
  | unknown
  | file (stat : Stat)
  | closed (stat : Stat)
  | directory (stat : Stat) (entries : Entries)

inductive Entries
  | nil
  | cons (name : Bytes) (tree : Tree) (rest : Entries)

end

def Entries.names : Entries → List Bytes
  | .nil => []
  | .cons name _ rest => name :: rest.names

mutual

def Tree.height : Tree → Nat
  | .unknown | .file _ | .closed _ => 0
  | .directory _ entries => entries.height + 1

def Entries.height : Entries → Nat
  | .nil => 0
  | .cons _ tree rest => max tree.height rest.height

end

/-- The names of entries. -/
structure EntryName (name : Bytes) : Prop where
  proper : Proper name
  noNul : ∀ byte ∈ name, byte ≠ 0
  short : name.length ≤ NAME_MAX

def isEntry (name : Bytes) : Bool := !(name = DOT || name = DOTDOT)

mutual

/-- The system has this tree under a path. -/
def Describes (system : System) (path : Bytes) : Tree → Prop
  | .unknown => system.lstat path = none
  | .file stat => system.lstat path = some stat ∧ S_ISDIR stat.st_mode = false
  | .closed stat => system.lstat path = some stat ∧ S_ISDIR stat.st_mode = true ∧
      system.opendir (path ++ [SLASH]) = none
  | .directory stat entries => system.lstat path = some stat ∧ S_ISDIR stat.st_mode = true ∧
      (∃ names, system.opendir (path ++ [SLASH]) = some names ∧
        names.filter isEntry = entries.names) ∧
      DescribesEntries system (path ++ [SLASH]) entries

def DescribesEntries (system : System) (front : Bytes) : Entries → Prop
  | .nil => True
  | .cons name tree rest => EntryName name ∧ name ∉ rest.names ∧
      Describes system (front ++ name) tree ∧ DescribesEntries system front rest

end

mutual

/-- The calls for a tree in pre-order. -/
def visits (path : Bytes) : Tree → List Call
  | .unknown => [⟨path, none, .FTW_NS⟩]
  | .file stat => [⟨path, some stat, .FTW_F⟩]
  | .closed stat => [⟨path, some stat, .FTW_D⟩, ⟨path ++ [SLASH], some stat, .FTW_DNR⟩]
  | .directory stat entries => ⟨path, some stat, .FTW_D⟩ :: visitsEntries (path ++ [SLASH]) entries

def visitsEntries (front : Bytes) : Entries → List Call
  | .nil => []
  | .cons name tree rest => visits (front ++ name) tree ++ visitsEntries front rest

end

/-- The calls are made one after the other up to the first result that is not 0. -/
def callAll (func : Myfunc) (before : List Call) : List Call → List Call × Int
  | [] => (before, 0)
  | call :: rest =>
      if func (before ++ [call]) ≠ 0 then (before ++ [call], func (before ++ [call]))
      else callAll func (before ++ [call]) rest

/-! ## The buffer -/

/-- The buffer has the size that the variable tells, and begins with `front`. -/
structure Intact (front : Bytes) (walk : Walk) : Prop where
  size : walk.fullpath.length = walk.pathlen
  large : NAME_MAX + 1 ≤ walk.pathlen
  front : front <+: walk.fullpath

section Buffer

variable {system : System} {walk : Walk} {front back : Bytes}

theorem Intact.weaken (intact : Intact (front ++ back) walk) : Intact front walk where
  size := intact.size
  large := intact.large
  front := (List.prefix_append front back).trans intact.front

theorem Intact.length_le (intact : Intact front walk) : front.length ≤ walk.pathlen := by
  rw [← intact.size]
  exact intact.front.length_le

theorem Intact.cString_eq (intact : Intact (front ++ [0]) walk)
    (noNul : ∀ byte ∈ front, byte ≠ 0) : cString walk.fullpath = front := by
  rcases intact.front with ⟨rest, whole⟩
  rw [← whole, List.append_assoc, List.singleton_append]
  exact cString_append noNul

theorem Intact.store (intact : Intact front walk) {bytes : Bytes}
    (room : front.length + bytes.length ≤ walk.pathlen) :
    ∃ after, store walk front.length bytes = .ok after ∧ Intact (front ++ bytes) after ∧
      after.calls = walk.calls ∧ after.pathlen = walk.pathlen := by
  have filled : Filled walk.fullpath.length front (walk.fullpath, front.length) :=
    ⟨rfl, rfl, intact.front⟩
  have roomThere : front.length + bytes.length + 0 ≤ walk.fullpath.length := by
    rw [intact.size]
    exact room
  rcases (writes_putBytes bytes).stores filled roomThere with ⟨⟨fullpath, position⟩, stored, holds⟩
  rw [TreeWalks.store, stored]
  exact ⟨_, rfl, ⟨holds.size.trans intact.size, intact.large, holds.holds⟩, rfl, rfl⟩

theorem length_contents (memory : Nat → Byte) (from_ upto : Nat) :
    (contents memory from_ upto).length = upto - from_ := by
  rw [contents, List.length_map, List.length_range']

theorem Intact.expand (intact : Intact front walk) {pathlen : Nat} (more : walk.pathlen ≤ pathlen) :
    (system.realloc pathlen = none ∧ expand system walk pathlen = .error .exit) ∨
      ∃ after, expand system walk pathlen = .ok after ∧ Intact front after ∧
        after.calls = walk.calls ∧ after.pathlen = pathlen := by
  rw [TreeWalks.expand]
  cases isMemory : system.realloc pathlen with
  | none => exact Or.inl ⟨rfl, rfl⟩
  | some memory =>
      right
      refine ⟨_, rfl, ⟨?_, intact.large.trans more, ?_⟩, rfl, rfl⟩
      · have isSize := intact.size
        dsimp only
        rw [List.length_append, length_contents]
        omega
      · exact intact.front.trans (List.prefix_append _ _)

end Buffer

/-! ## The calls -/

section Calls

variable {func : Myfunc}

/-- The calls of two parts are made one after the other unless the first part ends them. -/
theorem callAll_append (func : Myfunc) (second : List Call) : ∀ (first before : List Call),
    callAll func before (first ++ second) =
      if (callAll func before first).2 ≠ 0 then callAll func before first
      else callAll func (callAll func before first).1 second
  | [], before => by
      rw [List.nil_append, callAll, if_neg (not_not.mpr rfl)]
  | call :: first, before => by
      rw [List.cons_append, callAll, callAll]
      by_cases ends : func (before ++ [call]) ≠ 0
      · rw [if_pos ends, if_pos ends]
        exact (if_pos ends).symm
      · rw [if_neg ends, if_neg ends]
        exact callAll_append func second first (before ++ [call])

theorem callAll_single (func : Myfunc) (before : List Call) (call : Call) :
    callAll func before [call] = (before ++ [call], func (before ++ [call])) := by
  rw [callAll]
  by_cases ends : func (before ++ [call]) ≠ 0
  · rw [if_pos ends]
  · rw [if_neg ends, callAll, not_not.mp ends]

end Calls

/-! ## One level -/

/-- There is not enough memory, or `pathconf` fails. -/
def NoMemory (system : System) : Prop :=
  (∃ size, system.malloc size = none) ∨ (∃ size, system.realloc size = none) ∨
    system.pathconf = .failed

/-- Part of a walk makes these calls up to the first result that is not 0, returns the last result,
and leaves what is in front in the buffer. -/
def Makes (system : System) (func : Myfunc) (front : Bytes) (calls : List Call) (walk : Walk)
    (result : Except Stop (Walk × Int)) : Prop :=
  (NoMemory system ∧ result = .error .exit) ∨
    ∃ after, result = .ok (after, (callAll func walk.calls calls).2) ∧
      after.calls = (callAll func walk.calls calls).1 ∧ Intact front after ∧
      walk.pathlen ≤ after.pathlen

section Levels

variable {system : System} {func : Myfunc} {walk : Walk} {path front : Bytes}

theorem Intact.report (intact : Intact front walk) (statbuf : Option Stat) (type : FileType) :
    Intact front (report func walk statbuf type).1 :=
  ⟨intact.size, intact.large, intact.front⟩

theorem Makes.weaken {back : Bytes} {calls : List Call} {result : Except Stop (Walk × Int)}
    (makes : Makes system func (front ++ back) calls walk result) :
    Makes system func front calls walk result := by
  rcases makes with failed | ⟨after, isResult, isCalls, intact, grown⟩
  · exact Or.inl failed
  · exact Or.inr ⟨after, isResult, isCalls, intact.weaken, grown⟩

theorem makes_report (intact : Intact (path ++ [0]) walk) (noNul : ∀ byte ∈ path, byte ≠ 0)
    (statbuf : Option Stat) (type : FileType) :
    Makes system func (path ++ [0]) [⟨path, statbuf, type⟩] walk
      (.ok (report func walk statbuf type)) := by
  right
  refine ⟨(report func walk statbuf type).1, ?_, ?_, intact.report statbuf type, Nat.le_refl _⟩
  · rw [callAll_single, report, intact.cString_eq noNul]
  · rw [callAll_single, report, intact.cString_eq noNul]

/-- A part of a walk that makes no call comes first. -/
theorem Makes.behind {between : Walk} {calls : List Call} {result : Except Stop (Walk × Int)}
    (makes : Makes system func front calls between result) (same : between.calls = walk.calls)
    (grown : walk.pathlen ≤ between.pathlen) : Makes system func front calls walk result := by
  rw [Makes, same] at makes
  rcases makes with failed | ⟨after, isResult, isCalls, intact, more⟩
  · exact Or.inl failed
  · exact Or.inr ⟨after, isResult, isCalls, intact, grown.trans more⟩

/-- Two parts of a walk, the second of which comes after a result of 0. -/
theorem Makes.andThen {first second : List Call} {result final : Except Stop (Walk × Int)}
    {inner : Bytes} (makes : Makes system func inner first walk result)
    (stops : ∀ after ret, result = .ok (after, ret) → ret ≠ 0 → Intact inner after →
      ∃ last, final = .ok (last, ret) ∧ last.calls = after.calls ∧ Intact front last ∧
        after.pathlen ≤ last.pathlen)
    (continues : ∀ after, result = .ok (after, 0) → Intact inner after → walk.pathlen ≤ after.pathlen →
      Makes system func front second after final)
    (exits : result = .error .exit → final = .error .exit) :
    Makes system func front (first ++ second) walk final := by
  rcases makes with ⟨noMemory, failed⟩ | ⟨after, isResult, isCalls, intact, grown⟩
  · exact Or.inl ⟨noMemory, exits failed⟩
  · rw [Makes, callAll_append]
    by_cases ends : (callAll func walk.calls first).2 ≠ 0
    · rw [if_pos ends]
      rcases stops after _ isResult ends intact with ⟨last, isFinal, sameCalls, still, grownMore⟩
      exact Or.inr ⟨last, isFinal, sameCalls.trans isCalls, still, grown.trans grownMore⟩
    · rw [if_neg ends]
      rw [not_not.mp ends] at isResult
      rcases continues after isResult intact grown with failed | ⟨last, isFinal, lastCalls, still, more⟩
      · exact Or.inl failed
      · rw [isCalls] at isFinal lastCalls
        exact Or.inr ⟨last, isFinal, lastCalls, still, grown.trans more⟩

/-- The walk before the call of `opendir`, with a slash behind the path and room for a name. -/
structure Ready (path : Bytes) (before walk : Walk) : Prop where
  intact : Intact (path ++ [SLASH] ++ [0]) walk
  calls : walk.calls = before.calls
  room : path.length + NAME_MAX + 2 ≤ walk.pathlen
  grown : before.pathlen ≤ walk.pathlen

theorem addSlash_spec (intact : Intact (path ++ [0]) walk) :
    (NoMemory system ∧ addSlash system walk path.length = .error .exit) ∨
      ∃ after, addSlash system walk path.length = .ok after ∧ Ready path walk after := by
  have fits := intact.length_le
  have large := intact.large
  rw [List.length_append, List.length_singleton] at fits
  have isDouble : walk.pathlen ≤ walk.pathlen * 2 := by omega
  -- Doubling once is enough, since there is room for the path and a name is not longer than the buffer.
  have expanded : (NoMemory system ∧ enlarge system (path.length + NAME_MAX + 2 > walk.pathlen)
        (walk.pathlen * 2) walk = .error .exit) ∨
      ∃ after, enlarge system (path.length + NAME_MAX + 2 > walk.pathlen) (walk.pathlen * 2) walk =
          .ok after ∧ Intact path after ∧ after.calls = walk.calls ∧
        path.length + NAME_MAX + 2 ≤ after.pathlen ∧ walk.pathlen ≤ after.pathlen := by
    rw [enlarge]
    by_cases tooSmall : path.length + NAME_MAX + 2 > walk.pathlen
    · rw [if_pos (decide_eq_true tooSmall)]
      rcases intact.weaken.expand isDouble with ⟨noMemory, failed⟩ | ⟨after, isAfter, still, same, isLength⟩
      · exact Or.inl ⟨Or.inr (Or.inl ⟨_, noMemory⟩), failed⟩
      · exact Or.inr ⟨after, isAfter, still, same, by omega, by omega⟩
    · rw [if_neg (by rwa [decide_eq_true_eq])]
      exact Or.inr ⟨walk, rfl, intact.weaken, rfl, Nat.le_of_not_lt tooSmall, Nat.le_refl _⟩
  rw [addSlash]
  rcases expanded with ⟨noMemory, failed⟩ | ⟨between, isBetween, still, sameCalls, room, grown⟩
  · left
    rw [failed]
    exact ⟨noMemory, rfl⟩
  · right
    rw [isBetween]
    have roomForSlash : path.length + [SLASH].length ≤ between.pathlen := by
      rw [List.length_singleton]
      omega
    rcases still.store roomForSlash with ⟨slashed, isSlashed, withSlash, sameThere, sameLength⟩
    have isIndex : path.length + 1 = (path ++ [SLASH]).length := by
      rw [List.length_append, List.length_singleton]
    have roomForNul : (path ++ [SLASH]).length + [(0 : Byte)].length ≤ slashed.pathlen := by
      rw [← isIndex, List.length_singleton]
      omega
    rcases withSlash.store roomForNul with ⟨ended, isEnded, withNul, sameAgain, lengthAgain⟩
    refine ⟨ended, ?_, withNul, ?_, ?_, ?_⟩
    · rw [isIndex]
      simp only [bind, Except.bind, isSlashed, isEnded]
    · rw [sameAgain, sameThere, sameCalls]
    · rw [lengthAgain, sameLength]
      exact room
    · rw [lengthAgain, sameLength]
      exact grown

theorem isEntry_iff {name : Bytes} : isEntry name = true ↔ ¬(name = DOT ∨ name = DOTDOT) := by
  simp only [isEntry, Bool.not_eq_true', Bool.or_eq_false_iff, decide_eq_false_iff_not, not_or]

/-- Names that are not entries are passed over. -/
theorem readNames_filter (recurse : Walk → Except Stop (Walk × Int)) (n : Nat) :
    ∀ (names : List Bytes) (ret : Int) (walk : Walk), readNames recurse n names ret walk =
      readNames recurse n (names.filter isEntry) ret walk
  | [], _, _ => rfl
  | d_name :: names, ret, walk => by
      rw [readNames]
      by_cases isDot : d_name = DOT ∨ d_name = DOTDOT
      · have noEntry : ¬isEntry d_name = true := fun entry => isEntry_iff.mp entry isDot
        rw [if_pos isDot, List.filter_cons_of_neg noEntry]
        exact readNames_filter recurse n names ret walk
      · have entry : isEntry d_name = true := isEntry_iff.mpr isDot
        rw [if_neg isDot, List.filter_cons_of_pos entry, readNames, if_neg isDot]
        congr 1
        funext between
        congr 1
        funext outcome
        rcases outcome with ⟨after, ret⟩
        dsimp only
        rw [readNames_filter recurse n names ret after]

theorem noNul_append {front back : Bytes} (first : ∀ byte ∈ front, byte ≠ 0)
    (second : ∀ byte ∈ back, byte ≠ 0) : ∀ byte ∈ front ++ back, byte ≠ 0 := by
  intro byte member
  rcases List.mem_append.mp member with inFront | inBack
  · exact first byte inFront
  · exact second byte inBack

theorem noNul_slash : ∀ byte ∈ [SLASH], byte ≠ 0 := List.forall_mem_singleton.mpr (by decide)

/-- A directory that is opened, or not. -/
theorem descend_makes {recurse : Walk → Except Stop (Walk × Int)} {statbuf : Stat}
    {calls : List Call} (intact : Intact (path ++ [0]) walk) (noNul : ∀ byte ∈ path, byte ≠ 0)
    (opens : match system.opendir (path ++ [SLASH]) with
      | none => calls = [⟨path ++ [SLASH], some statbuf, .FTW_DNR⟩]
      | some names => ∀ between, Intact (path ++ [SLASH]) between →
          (path ++ [SLASH]).length + NAME_MAX + 1 ≤ between.pathlen →
          Makes system func (path ++ [SLASH]) calls between
            (readNames recurse (path ++ [SLASH]).length names 0 between)) :
    Makes system func path calls walk (descend system func recurse statbuf path.length 0 walk) := by
  rw [descend]
  rcases addSlash_spec intact with ⟨noMemory, failed⟩ | ⟨ready, isReady, prepared⟩
  · rw [failed]
    exact Or.inl ⟨noMemory, rfl⟩
  · have noNulThere := noNul_append noNul noNul_slash
    have isLength : (path ++ [SLASH]).length = path.length + 1 := by
      rw [List.length_append, List.length_singleton]
    rw [isReady]
    simp only [bind, Except.bind, prepared.intact.cString_eq noNulThere]
    cases isOpen : system.opendir (path ++ [SLASH]) with
    | none =>
        rw [isOpen] at opens
        dsimp only at opens
        rw [opens]
        have makes : Makes system func (path ++ [SLASH] ++ [0]) _ ready _ :=
          makes_report prepared.intact noNulThere (some statbuf) .FTW_DNR
        exact makes.weaken.weaken.behind prepared.calls prepared.grown
    | some names =>
        rw [isOpen] at opens
        have room : (path ++ [SLASH]).length + NAME_MAX + 1 ≤ ready.pathlen := by
          have enough := prepared.room
          omega
        rw [isLength] at room opens
        rcases opens ready prepared.intact.weaken room with
          ⟨noMemory, failed⟩ | ⟨after, isResult, isCalls, still, grown⟩
        · left
          dsimp only
          rw [failed]
          exact ⟨noMemory, rfl⟩
        · have roomForNul : path.length + [(0 : Byte)].length ≤ after.pathlen := by
            rw [List.length_singleton]
            omega
          rcases still.weaken.store roomForNul with ⟨ended, isEnded, withNul, sameCalls, sameLength⟩
          right
          dsimp only
          rw [isResult]
          dsimp only
          rw [isEnded]
          rw [prepared.calls] at isCalls ⊢
          refine ⟨ended, rfl, sameCalls.trans isCalls, withNul.weaken, ?_⟩
          rw [sameLength]
          exact prepared.grown.trans grown

/-- A directory is reported, and then opened unless the callback ends the walk. -/
theorem dopath_directory {stat : Stat} {calls : List Call} {depth : Nat}
    (intact : Intact (path ++ [0]) walk) (noNul : ∀ byte ∈ path, byte ≠ 0)
    (isStat : system.lstat path = some stat) (isDirectory : S_ISDIR stat.st_mode = true)
    (opens : match system.opendir (path ++ [SLASH]) with
      | none => calls = [⟨path ++ [SLASH], some stat, .FTW_DNR⟩]
      | some names => ∀ between, Intact (path ++ [SLASH]) between →
          (path ++ [SLASH]).length + NAME_MAX + 1 ≤ between.pathlen →
          Makes system func (path ++ [SLASH]) calls between
            (readNames (dopath system func depth) (path ++ [SLASH]).length names 0 between)) :
    Makes system func path (⟨path, some stat, .FTW_D⟩ :: calls) walk
      (dopath system func (depth + 1) walk) := by
  have isReport := @makes_report system func walk path intact noNul (some stat) .FTW_D
  rw [dopath, intact.cString_eq noNul, isStat]
  dsimp only
  rw [if_neg (by rw [isDirectory]; exact Bool.true_eq_false.mp), ← List.singleton_append]
  apply isReport.andThen
  · intro after ret isResult ends still
    rw [Except.ok.injEq] at isResult
    rw [isResult]
    exact ⟨after, if_pos ends, rfl, still.weaken, Nat.le_refl _⟩
  · intro after isResult still _
    rw [Except.ok.injEq] at isResult
    rw [isResult]
    dsimp only
    rw [if_neg (not_not.mpr rfl), still.cString_eq noNul]
    exact descend_makes still noNul opens
  · exact nofun

mutual

/-- The walk makes the calls for the tree under the path. -/
theorem dopath_makes : ∀ (tree : Tree) {path : Bytes} {depth : Nat} {walk : Walk},
    Describes system path tree → (∀ byte ∈ path, byte ≠ 0) → tree.height < depth →
    Intact (path ++ [0]) walk →
    Makes system func path (visits path tree) walk (dopath system func depth walk)
  | tree, path, 0, _, _, _, bound, _ => absurd bound (Nat.not_lt_zero _)
  | .unknown, path, depth + 1, walk, described, noNul, bound, intact => by
      rw [dopath, intact.cString_eq noNul, show system.lstat path = none from described, visits]
      exact (makes_report intact noNul none .FTW_NS).weaken
  | .file stat, path, depth + 1, walk, described, noNul, bound, intact => by
      rw [dopath, intact.cString_eq noNul, described.1, visits]
      dsimp only
      rw [if_pos described.2]
      exact (makes_report intact noNul (some stat) .FTW_F).weaken
  | .closed stat, path, depth + 1, walk, described, noNul, bound, intact => by
      rw [visits]
      apply dopath_directory intact noNul described.1 described.2.1
      rw [described.2.2]
  | .directory stat entries, path, depth + 1, walk, described, noNul, bound, intact => by
      rcases described with ⟨isStat, isDirectory, ⟨names, isOpen, isNames⟩, isDescribed⟩
      rw [visits]
      apply dopath_directory intact noNul isStat isDirectory
      rw [isOpen]
      dsimp only
      intro between still room
      rw [readNames_filter, isNames]
      exact readNames_makes entries isDescribed (noNul_append noNul noNul_slash)
        (Nat.lt_of_succ_lt_succ bound) still room

theorem readNames_makes : ∀ (entries : Entries) {front : Bytes} {depth : Nat} {walk : Walk},
    DescribesEntries system front entries → (∀ byte ∈ front, byte ≠ 0) → entries.height < depth →
    Intact front walk → front.length + NAME_MAX + 1 ≤ walk.pathlen →
    Makes system func front (visitsEntries front entries) walk
      (readNames (dopath system func depth) front.length entries.names 0 walk)
  | .nil, front, depth, walk, described, noNul, bound, intact, room =>
      Or.inr ⟨walk, rfl, rfl, intact, Nat.le_refl _⟩
  | .cons name tree rest, front, depth, walk, described, noNul, bound, intact, room => by
      rcases described with ⟨isName, _, inTree, inRest⟩
      have noDot : ¬(name = DOT ∨ name = DOTDOT) := not_or.mpr ⟨isName.proper.noDot, isName.proper.noDotDot⟩
      have bounds := Nat.max_lt.mp bound
      have short := isName.short
      have roomForName : front.length + (name ++ [0]).length ≤ walk.pathlen := by
        rw [List.length_append, List.length_singleton]
        omega
      rcases intact.store roomForName with ⟨named, isNamed, withName, sameCalls, sameLength⟩
      rw [← List.append_assoc] at withName
      rw [Entries.names, readNames, if_neg noDot, strcpy, isNamed, visitsEntries]
      have first := dopath_makes tree inTree (noNul_append noNul isName.noNul) bounds.1 withName
      apply Makes.behind _ sameCalls (Nat.le_of_eq sameLength.symm)
      apply first.andThen
      · intro after ret isResult ends still
        refine ⟨after, ?_, rfl, still.weaken, Nat.le_refl _⟩
        simp only [bind, Except.bind, isResult]
        rw [if_pos ends]
        rfl
      · intro after isResult still grown
        simp only [bind, Except.bind, isResult]
        rw [if_neg (not_not.mpr rfl)]
        apply readNames_makes rest inRest noNul bounds.2 still.weaken
        rw [sameLength] at grown
        omega
      · intro failed
        simp only [bind, Except.bind, failed]

end

end Levels

/-! ## Each entry once -/

section Once

variable {system : System}

/-- The rest of a path behind a name. -/
def Behind (rest : Bytes) : Prop := rest = [] ∨ ∃ tail, rest = SLASH :: tail

theorem takeWhile_name {name rest : Bytes} (noSlash : SLASH ∉ name) (behind : Behind rest) :
    (name ++ rest).takeWhile (· ≠ SLASH) = name := by
  have all : ∀ byte ∈ name, decide (byte ≠ SLASH) = true := by
    intro byte member
    rw [decide_eq_true_eq]
    rintro rfl
    exact noSlash member
  rw [List.takeWhile_append_of_pos all]
  rcases behind with rfl | ⟨tail, rfl⟩
  · rw [List.takeWhile_nil, List.append_nil]
  · rw [List.takeWhile_cons_of_neg (by decide), List.append_nil]

mutual

theorem visits_path : ∀ (tree : Tree) {path : Bytes} {call : Call}, call ∈ visits path tree →
    ∃ rest, call.path = path ++ rest ∧ Behind rest
  | .unknown, path, call, member => by
      rw [List.mem_singleton.mp member]
      exact ⟨[], (List.append_nil _).symm, Or.inl rfl⟩
  | .file stat, path, call, member => by
      rw [List.mem_singleton.mp member]
      exact ⟨[], (List.append_nil _).symm, Or.inl rfl⟩
  | .closed stat, path, call, member => by
      rcases List.mem_cons.mp member with isFirst | isSecond
      · rw [isFirst]
        exact ⟨[], (List.append_nil _).symm, Or.inl rfl⟩
      · rw [List.mem_singleton.mp isSecond]
        exact ⟨[SLASH], rfl, Or.inr ⟨[], rfl⟩⟩
  | .directory stat entries, path, call, member => by
      rcases List.mem_cons.mp member with isFirst | inEntries
      · rw [isFirst]
        exact ⟨[], (List.append_nil _).symm, Or.inl rfl⟩
      · rcases visitsEntries_path entries inEntries with ⟨name, _, rest, isPath, _⟩
        refine ⟨SLASH :: (name ++ rest), ?_, Or.inr ⟨_, rfl⟩⟩
        rw [isPath, List.append_assoc, List.append_assoc, List.singleton_append]

theorem visitsEntries_path : ∀ (entries : Entries) {front : Bytes} {call : Call},
    call ∈ visitsEntries front entries →
      ∃ name ∈ entries.names, ∃ rest, call.path = front ++ name ++ rest ∧ Behind rest
  | .nil, front, call, member => nomatch member
  | .cons name tree rest, front, call, member => by
      rcases List.mem_append.mp member with inTree | inRest
      · rcases visits_path tree inTree with ⟨back, isPath, behind⟩
        exact ⟨name, List.mem_cons_self, back, isPath, behind⟩
      · rcases visitsEntries_path rest inRest with ⟨other, isName, back, isPath, behind⟩
        exact ⟨other, List.mem_cons_of_mem _ isName, back, isPath, behind⟩

end

theorem names_noSlash : ∀ {entries : Entries} {front : Bytes}, DescribesEntries system front entries →
    ∀ name ∈ entries.names, SLASH ∉ name
  | .nil, _, _ => nofun
  | .cons name tree rest, front, described => by
      intro other member
      rcases List.mem_cons.mp member with rfl | inRest
      · exact described.1.proper.noSlash
      · exact names_noSlash described.2.2.2 other inRest

mutual

theorem visits_nodup : ∀ (tree : Tree) {path : Bytes}, Describes system path tree →
    ((visits path tree).map Call.path).Nodup
  | .unknown, path, _ => List.nodup_singleton _
  | .file stat, path, _ => List.nodup_singleton _
  | .closed stat, path, _ => by
      apply List.nodup_cons.mpr
      refine ⟨fun member => ?_, List.nodup_singleton _⟩
      have same : path = path ++ [SLASH] := List.mem_singleton.mp member
      have lengths := congrArg List.length same
      rw [List.length_append, List.length_singleton] at lengths
      omega
  | .directory stat entries, path, described => by
      rw [visits, List.map_cons]
      apply List.nodup_cons.mpr
      refine ⟨fun member => ?_, visitsEntries_nodup entries described.2.2.2⟩
      rcases List.mem_map.mp member with ⟨call, inEntries, isPath⟩
      rcases visitsEntries_path entries inEntries with ⟨name, _, rest, isPathThere, _⟩
      have lengths := congrArg List.length (isPathThere.symm.trans isPath)
      rw [List.length_append, List.length_append, List.length_append, List.length_singleton] at lengths
      dsimp only at lengths
      omega

theorem visitsEntries_nodup : ∀ (entries : Entries) {front : Bytes},
    DescribesEntries system front entries → ((visitsEntries front entries).map Call.path).Nodup
  | .nil, _, _ => List.nodup_nil
  | .cons name tree rest, front, described => by
      rcases described with ⟨isName, isNew, inTree, inRest⟩
      rw [visitsEntries, List.map_append]
      apply List.nodup_append.mpr
      refine ⟨visits_nodup tree inTree, visitsEntries_nodup rest inRest, ?_⟩
      intro first isFirst second isSecond same
      rcases List.mem_map.mp isFirst with ⟨call, inFirst, rfl⟩
      rcases List.mem_map.mp isSecond with ⟨later, inSecond, rfl⟩
      rcases visits_path tree inFirst with ⟨back, isPath, behind⟩
      rcases visitsEntries_path rest inSecond with ⟨other, isOther, otherBack, isPathThere, behindOther⟩
      rw [isPath, isPathThere, List.append_assoc, List.append_assoc] at same
      have sameRest := List.append_cancel_left same
      have sameName := congrArg (List.takeWhile (· ≠ SLASH)) sameRest
      rw [takeWhile_name isName.proper.noSlash behind,
        takeWhile_name (names_noSlash inRest other isOther) behindOther] at sameName
      rw [sameName] at isNew
      exact isNew isOther

end

end Once

/-! ## The whole walk -/

def POSIX_PATH_MAX : Nat := 256

/-- The limits of the system are not below the smallest that the standard allows. -/
structure Limits (system : System) : Prop where
  defined : ∀ pathmax, system.PATH_MAX = some pathmax → POSIX_PATH_MAX ≤ pathmax
  asked : ∀ value, system.pathconf = .limit value → POSIX_PATH_MAX ≤ value

theorem pathAlloc_spec {system : System} (limits : Limits system) :
    (NoMemory system ∧ pathAlloc system = .error .exit) ∨
      ∃ walk, pathAlloc system = .ok walk ∧ Intact [] walk ∧ walk.calls = [] := by
  have isMax : (NoMemory system ∧ pathMax system = .error .exit) ∨
      ∃ pathmax, pathMax system = .ok pathmax ∧ NAME_MAX + 1 ≤ pathmax := by
    rw [pathMax]
    cases isDefined : system.PATH_MAX with
    | some pathmax => exact Or.inr ⟨pathmax, rfl, limits.defined pathmax isDefined⟩
    | none =>
        cases isAsked : system.pathconf with
        | limit value =>
            have large := limits.asked value isAsked
            exact Or.inr ⟨value + 1, rfl, Nat.le_succ_of_le large⟩
        | indeterminate => exact Or.inr ⟨PATH_MAX_GUESS, rfl, by decide⟩
        | failed => exact Or.inl ⟨Or.inr (Or.inr isAsked), rfl⟩
  rw [pathAlloc]
  rcases isMax with ⟨noMemory, failed⟩ | ⟨pathmax, isSome, large⟩
  · rw [failed]
    exact Or.inl ⟨noMemory, rfl⟩
  · rw [isSome]
    simp only [bind, Except.bind]
    generalize isSize : (if system.posix_version < 200112 ∧ system.xsi_version < 4 then pathmax + 1
      else pathmax) = size
    have largeSize : NAME_MAX + 1 ≤ size := by
      rw [← isSize]
      split
      · exact Nat.le_succ_of_le large
      · exact large
    cases isMemory : system.malloc size with
    | none => exact Or.inl ⟨Or.inl ⟨size, isMemory⟩, rfl⟩
    | some memory =>
        right
        refine ⟨_, rfl, ⟨?_, largeSize, List.nil_prefix⟩, rfl⟩
        exact (length_contents memory 0 size).trans (Nat.sub_zero size)

/-- Unless there is no memory, the walk makes the calls for the tree in pre-order up to the first
result that is not 0, which it returns. Nothing is written outside the buffer, and each path comes
once. -/
theorem myftw_makes {system : System} (limits : Limits system) (func : Myfunc) (pathname : CString)
    {tree : Tree} (described : Describes system pathname tree) {depth : Nat}
    (deep : tree.height < depth) :
    ((NoMemory system ∧ myftw system func depth pathname = .error .exit) ∨
      ∃ after, myftw system func depth pathname =
          .ok (after, (callAll func [] (visits pathname tree)).2) ∧
        after.calls = (callAll func [] (visits pathname tree)).1) ∧
      ((visits pathname tree).map Call.path).Nodup := by
  refine ⟨?_, visits_nodup tree described⟩
  rw [myftw]
  rcases pathAlloc_spec limits with ⟨noMemory, failed⟩ | ⟨start, isStart, intact, noCalls⟩
  · rw [failed]
    exact Or.inl ⟨noMemory, rfl⟩
  · rw [isStart]
    simp only [bind, Except.bind]
    have large := intact.large
    have enlarged : (NoMemory system ∧ enlarge system (start.pathlen ≤ pathname.val.length)
          (pathname.val.length * 2) start = .error .exit) ∨
        ∃ after, enlarge system (start.pathlen ≤ pathname.val.length) (pathname.val.length * 2) start =
            .ok after ∧ Intact [] after ∧ after.calls = start.calls ∧
          pathname.val.length + 1 ≤ after.pathlen := by
      rw [enlarge]
      by_cases tooSmall : start.pathlen ≤ pathname.val.length
      · rw [if_pos (decide_eq_true tooSmall)]
        have isMore : start.pathlen ≤ pathname.val.length * 2 := by omega
        rcases intact.expand isMore with ⟨noMemory, failed⟩ | ⟨after, isAfter, still, same, isLength⟩
        · exact Or.inl ⟨Or.inr (Or.inl ⟨_, noMemory⟩), failed⟩
        · exact Or.inr ⟨after, isAfter, still, same, by omega⟩
      · rw [if_neg (by rwa [decide_eq_true_eq])]
        exact Or.inr ⟨start, rfl, intact, rfl, Nat.lt_of_not_le tooSmall⟩
    rcases enlarged with ⟨noMemory, failed⟩ | ⟨between, isBetween, still, same, room⟩
    · rw [failed]
      exact Or.inl ⟨noMemory, rfl⟩
    · rw [isBetween]
      have roomForPath : ([] : Bytes).length + (pathname.val ++ [0]).length ≤ between.pathlen := by
        rw [List.length_nil, List.length_append, List.length_singleton]
        omega
      rcases still.store roomForPath with ⟨named, isNamed, withPath, sameCalls, _⟩
      have isCopied : strcpy between 0 pathname.val = .ok named := isNamed
      dsimp only
      rw [isCopied]
      have makes := @dopath_makes system func tree _ _ _ described pathname.property deep withPath
      rw [Makes, sameCalls, same, noCalls] at makes
      rcases makes with failed | ⟨after, isResult, isCalls, _, _⟩
      · exact Or.inl failed
      · exact Or.inr ⟨after, isResult, isCalls⟩

/-- A directory with a file and a directory that cannot be opened. -/
def smallTree : Tree :=
  .directory ⟨0o040755⟩ (.cons [97] (.file ⟨0o100644⟩) (.cons [98] (.closed ⟨0o040000⟩) .nil))

/-- The system with that tree under the path `t`, and plenty of memory. -/
def smallSystem : System where
  PATH_MAX := some 4096
  pathconf := .indeterminate
  posix_version := 200809
  xsi_version := 700
  malloc := fun _ => some fun _ => 255
  realloc := fun _ => some fun _ => 255
  lstat := fun path =>
    if path = [116] then some ⟨0o040755⟩
    else if path = [116, 47, 97] then some ⟨0o100644⟩
    else if path = [116, 47, 98] then some ⟨0o040000⟩
    else none
  opendir := fun path => if path = [116, 47] then some [DOTDOT, [97], DOT, [98]] else none

theorem smallSystem_describes : Describes smallSystem [116] smallTree := by
  have named : ∀ name ∈ [[97], [98]], EntryName name := by
    intro name member
    rcases List.mem_cons.mp member with rfl | inRest
    · exact ⟨by decide, List.forall_mem_singleton.mpr (by decide), by decide⟩
    · rw [List.mem_singleton.mp inRest]
      exact ⟨by decide, List.forall_mem_singleton.mpr (by decide), by decide⟩
  refine ⟨rfl, rfl, ⟨_, rfl, rfl⟩, ?_⟩
  refine ⟨named [97] (by decide), by decide, ⟨rfl, rfl⟩, ?_⟩
  exact ⟨named [98] (by decide), by decide, ⟨rfl, rfl, rfl⟩, trivial⟩

/-- The callback ends the walk at the second call for the closed directory. -/
theorem myftw_makes_small :
    ((NoMemory smallSystem ∧ myftw smallSystem
        (fun calls => if calls.length = 4 then 7 else 0) 2 [116] = .error .exit) ∨
      ∃ after, myftw smallSystem (fun calls => if calls.length = 4 then 7 else 0) 2 [116] =
          .ok (after, (callAll (fun calls => if calls.length = 4 then 7 else 0) []
            (visits [116] smallTree)).2) ∧
        after.calls = (callAll (fun calls => if calls.length = 4 then 7 else 0) []
          (visits [116] smallTree)).1) ∧
      ((visits [116] smallTree).map Call.path).Nodup := by
  have limits : Limits smallSystem := by
    constructor
    · intro pathmax isDefined
      cases isDefined
      decide
    · exact nofun
  exact myftw_makes limits _ ⟨[116], List.forall_mem_singleton.mpr (by decide)⟩
    smallSystem_describes (by decide)

end Apue.Filedir.TreeWalks
