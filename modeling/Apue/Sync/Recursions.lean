import Apue.Sync.MultiProcessFiles
import Apue.Sync.PlainPrograms
import Mathlib.Data.Set.Finite.Lattice

/-! # Recursions over a directory tree

Every synchroniser goes through the source with recursive functions that join
paths into buffers of a fixed size. What is cut off there decides which
directory a recursive call is for.
-/

namespace Apue.Sync

open Apue.Foundation

variable {files : Files} {cwd place : Place} {limit : Nat} {path name : Bytes}

/-! ## Joined paths -/

theorem joinPath_of_lt (short : path.length < limit) (name : Bytes) :
    joinPath limit path name = path ++ Path.SLASH :: name.take (limit - (path.length + 1)) := by
  have behind : limit - path.length = limit - (path.length + 1) + 1 := by omega
  rw [joinPath, List.take_append, List.take_of_length_le (Nat.le_of_lt short), behind,
    List.take_succ_cons]

theorem joinPath_of_le (long : limit ≤ path.length) (name : Bytes) :
    joinPath limit path name = path.take limit := by
  rw [joinPath, List.take_append, Nat.sub_eq_zero_of_le long, List.take_zero, List.append_nil]

theorem joinPath_length_le (path name : Bytes) : (joinPath limit path name).length ≤ limit :=
  List.length_take_le _ _

theorem resolve_joinPath (short : path.length < limit)
    (leads : files.LeadsToDirectory cwd path place) (noSlash : Path.SLASH ∉ name) :
    files.resolve cwd (joinPath limit path name) =
      some (Path.step place (name.take (limit - (path.length + 1)))) := by
  rw [joinPath_of_lt short]
  exact Files.resolve_name leads.1 leads.2 fun member => noSlash (List.mem_of_mem_take member)

/-- `inner` leads to something below the directory that `outer` leads to. -/
def StrictlyBelow (files : Files) (cwd : Place) (outer inner : Bytes) : Prop :=
  ∃ place names, names ≠ [] ∧ files.resolve cwd outer = some place ∧
    files.resolve cwd inner = some (place ++ names)

/-- An entry that a recursion does not pass over. -/
structure Entry (files : Files) (place : Place) (name : Bytes) : Prop where
  there : files (place ++ [name]) ≠ none
  noDot : name ≠ Path.DOT
  noDotDot : name ≠ Path.DOTDOT

/-- The directories that a recursion comes to from `start`, each by the path
string that it has for it. -/
inductive Reaches (files : Files) (cwd : Place) (limit : Nat) (start : Bytes) :
    Bytes → Place → Prop
  | start {place : Place} (leads : files.LeadsToDirectory cwd start place) :
      Reaches files cwd limit start start place
  | entry {path name : Bytes} {place inner : Place}
      (reached : Reaches files cwd limit start path place) (entry : Entry files place name)
      (leads : files.LeadsToDirectory cwd (joinPath limit path name) inner) :
      Reaches files cwd limit start (joinPath limit path name) inner

/-- What is left of the name is not empty and none of the names for a directory
itself and its parent. Only the path that a recursion starts from may be longer
than the buffers; all the joined paths are its front then. -/
def KeepsName (files : Files) (cwd : Place) (limit : Nat) (path name : Bytes) : Prop :=
  if path.length ≤ limit then
    name.take (limit - (path.length + 1)) ∉ [[], Path.DOT, Path.DOTDOT]
  else
    ∀ place, files.LeadsToDirectory cwd (path.take limit) place →
      StrictlyBelow files cwd path (path.take limit)

/-- Every path that a recursion joins keeps the name of the entry. -/
def KeepsNames (files : Files) (cwd : Place) (limit : Nat) (start : Bytes) : Prop :=
  ∀ path place name, Reaches files cwd limit start path place → Entry files place name →
    KeepsName files cwd limit path name

/-! ## What the calls may do meanwhile -/

/-- Paths that were handed on, and the entry that they are for. -/
structure Handed where
  place : Place
  source : Bytes
  target : Bytes

structure TreeState where
  files : Files
  handed : List Handed

/-- Directories stay, and so does the source. The path that a recursion starts
from, cut to the size of the buffers, goes on to lead where it led. -/
structure KeepsSource (cwd source : Place) (cut : Bytes) (before after : Files) : Prop where
  directories : ∀ place, before.isDirectory place = true → after.isDirectory place = true
  source : ∀ names, after (source ++ names) = before (source ++ names)
  cut : after.lookup cwd cut = before.lookup cwd cut

/-- The calls that are answered from the files. -/
def LooksAtFiles : SysCall → Prop
  | .stat _ => True
  | .readDirectory _ => True
  | .handing _ _ _ _ => True
  | _ => False

/-- `stat` and `readdir` tell what is there. Every other call has every answer, and
the files may change in between as far as the source stays what it is. -/
inductive TreeAnswers (cwd source : Place) (cut : Bytes) :
    (call : SysCall) → TreeState → SysResponse call → TreeState → Prop
  | stat (path : Bytes) (state : TreeState) :
      TreeAnswers cwd source cut (.stat path) state
        ((state.files.lookup cwd path).map fun found => nodeStat found.2) state
  | readDirectory {path : Bytes} {state : TreeState} {place : Place} {names : List Bytes}
      (leads : state.files.LeadsToDirectory cwd path place)
      (lists : state.files.Lists place names) :
      TreeAnswers cwd source cut (.readDirectory path) state
        (some names : Option (List Bytes)) state
  | noDirectory {path : Bytes} {state : TreeState}
      (missing : ∀ place, ¬ state.files.LeadsToDirectory cwd path place) :
      TreeAnswers cwd source cut (.readDirectory path) state (none : Option (List Bytes)) state
  | handing {directory : Bytes} {place : Place} (name first second : Bytes) {state : TreeState}
      (leads : state.files.LeadsToDirectory cwd directory place) :
      TreeAnswers cwd source cut (.handing directory name first second) state ()
        { state with handed := state.handed ++ [⟨place ++ [name], first, second⟩] }
  | other {call : SysCall} {state : TreeState} {files : Files} (response : SysResponse call)
      (different : ¬ LooksAtFiles call) (kept : KeepsSource cwd source cut state.files files) :
      TreeAnswers cwd source cut call state response { state with files := files }

theorem KeepsSource.refl {source : Place} {cut : Bytes} : KeepsSource cwd source cut files files :=
  ⟨fun _ directory => directory, fun _ => rfl, rfl⟩

theorem KeepsSource.trans {source : Place} {cut : Bytes} {before between after : Files}
    (first : KeepsSource cwd source cut before between)
    (second : KeepsSource cwd source cut between after) :
    KeepsSource cwd source cut before after :=
  ⟨fun place directory => second.directories place (first.directories place directory),
    fun names => (second.source names).trans (first.source names), second.cut.trans first.cut⟩

theorem KeepsSource.leads {source : Place} {cut : Bytes} {before after : Files}
    (kept : KeepsSource cwd source cut before after)
    (leads : before.LeadsToDirectory cwd path place) : after.LeadsToDirectory cwd path place :=
  ⟨Files.resolve_mono kept.directories leads.1, kept.directories place leads.2⟩

/-! ## Recursions in general -/

/-- What is asked of the calls of a recursion, and what holds of the files and of
the paths that were handed on at all times. -/
structure Safety (cwd source : Place) (cut : Bytes) where
  allowed : SysCall → TreeState → Prop
  invariant : TreeState → Prop
  plain : ∀ call state, call.Plain → allowed call state
  keeps : ∀ state files, invariant state → KeepsSource cwd source cut state.files files →
    invariant { state with files := files }
  hands : ∀ directory place name first second state, invariant state →
    allowed (.handing directory name first second) state →
    state.files.LeadsToDirectory cwd directory place →
    invariant { state with handed := state.handed ++ [⟨place ++ [name], first, second⟩] }

section Safety

variable {source : Place} {cut : Bytes} (safety : Safety cwd source cut) {Value : Type}

/-- The calls of the program are allowed, and it keeps to the source. -/
abbrev Safety.Tame (program : Sys Value) (state : TreeState) : Prop :=
  program.Always (TreeAnswers cwd source cut) safety.allowed
    (fun _ after => safety.invariant after ∧ KeepsSource cwd source cut state.files after.files)
    state

/-- The calls of the program are allowed. -/
abbrev Safety.Allows (program : Sys Value) (state : TreeState) : Prop :=
  program.Always (TreeAnswers cwd source cut) safety.allowed (fun _ _ => True) state

end Safety

/-- A function that calls itself for those entries of a directory that are
directories by their joined path. It may hand the paths of the others on, depending
on whether there is something where the joined path leads. -/
structure DirectoryRecursion {Arg Result : Type} (hands : Bool → Bool) (limit : Nat)
    (targetDir : Bytes → Arg → Bytes) (program : Nat → Bytes → Arg → Sys Result) : Prop where
  stops : ∀ path arg, program 0 path arg = Sys.tooDeep
  /-- A call is good if all that it does with the entries is. -/
  calls : ∀ {cwd source cut} (safety : Safety cwd source cut) {depth path arg place}
    {state : TreeState}, safety.invariant state →
    (∀ other, state.files.LeadsToDirectory cwd path other → other = place) →
    (∀ name, Entry state.files place name → ∀ after : TreeState, safety.invariant after →
      KeepsSource cwd source cut state.files after.files →
      (∀ inner, after.files.LeadsToDirectory cwd (joinPath limit path name) inner →
        safety.allowed (.descend path (joinPath limit path name)) after ∧
          ∀ innerArg, targetDir (joinPath limit path name) innerArg =
              joinPath limit (targetDir path arg) name →
            ∀ last : TreeState, safety.invariant last →
              KeepsSource cwd source cut after.files last.files →
              safety.Tame (program depth (joinPath limit path name) innerArg) last) ∧
      (hands (after.files.lookup cwd (joinPath limit path name)).isSome = true →
        (∀ inner, ¬ after.files.LeadsToDirectory cwd (joinPath limit path name) inner) →
        safety.allowed (.handing path name (joinPath limit path name)
          (joinPath limit (targetDir path arg) name)) after)) →
    safety.Tame (program (depth + 1) path arg) state
  /-- An entry may be the first one that `readdir` returns. -/
  enters : ∀ {cwd source cut} (safety : Safety cwd source cut) {depth path arg place name}
    {state : TreeState}, {there | state.files there ≠ none}.Finite →
    safety.Allows (program (depth + 1) path arg) state →
    state.files.LeadsToDirectory cwd path place → Entry state.files place name →
    (∀ inner, state.files.LeadsToDirectory cwd (joinPath limit path name) inner →
      safety.allowed (.descend path (joinPath limit path name)) state ∧
        ∃ innerArg, targetDir (joinPath limit path name) innerArg =
            joinPath limit (targetDir path arg) name ∧
          safety.Allows (program depth (joinPath limit path name) innerArg) state) ∧
    (hands (state.files.lookup cwd (joinPath limit path name)).isSome = true →
      (∀ inner, ¬ state.files.LeadsToDirectory cwd (joinPath limit path name) inner) →
      safety.allowed (.handing path name (joinPath limit path name)
        (joinPath limit (targetDir path arg) name)) state)

section Proof

variable {source : Place} {start : Bytes}

theorem Reaches.leads (reached : Reaches files cwd limit start path place) :
    files.LeadsToDirectory cwd path place := by
  cases reached with
  | start leads => exact leads
  | entry _ _ leads => exact leads

theorem Reaches.short (reached : Reaches files cwd limit start path place) :
    path = start ∨ path.length ≤ limit := by
  cases reached with
  | start _ => exact Or.inl rfl
  | entry _ _ _ => exact Or.inr (joinPath_length_le _ _)

/-- The directories whose paths fit are come to by these paths. -/
theorem reaches_of_fits (wellFormed : files.WellFormed)
    (leads : files.LeadsToDirectory cwd start source) {names : List Bytes}
    (directory : files.isDirectory (source ++ names) = true)
    (fits : (start ++ Path.below names).length ≤ limit) :
    Reaches files cwd limit start (start ++ Path.below names) (source ++ names) := by
  induction names using List.reverseRecOn with
  | nil =>
      rw [Path.below_nil, List.append_nil, List.append_nil]
      exact .start leads
  | append_singleton names name hypothesis =>
      rw [← List.append_assoc] at directory
      rcases Files.isDirectory_iff.mp directory with ⟨size, mtime, there⟩
      have some : files (source ++ names ++ [name]) ≠ none := by
        rw [there]
        exact Option.some_ne_none _
      have proper := wellFormed.proper _ _ some
      have parent := wellFormed.parent _ _ some
      rw [Path.below_concat, ← List.append_assoc] at fits ⊢
      rw [List.length_append, List.length_cons] at fits
      have reached := hypothesis parent (by omega)
      have joined : joinPath limit (start ++ Path.below names) name =
          start ++ Path.below names ++ Path.SLASH :: name := by
        rw [joinPath_of_lt (by omega), List.take_of_length_le (by omega)]
      rw [← joined, ← List.append_assoc]
      refine .entry reached ⟨some, proper.noDot, proper.noDotDot⟩ ⟨?_, directory⟩
      rw [joined, Files.resolve_name reached.leads.1 parent proper.noSlash,
        Path.step_proper proper]

/-- Of the entries of a directory whose path fills the buffer nothing is kept. -/
theorem not_keepsNames (wellFormed : files.WellFormed)
    (leads : files.LeadsToDirectory cwd start source) {names : List Bytes}
    (directory : files.isDirectory (source ++ names) = true)
    (full : (start ++ Path.below names).length = limit)
    (entry : Entry files (source ++ names) name) : ¬ KeepsNames files cwd limit start := by
  intro keeps
  have kept := keeps _ _ name (reaches_of_fits wellFormed leads directory full.le) entry
  rw [KeepsName, if_pos full.le, full, Nat.sub_eq_zero_of_le (Nat.le_succ _),
    List.take_zero] at kept
  exact kept List.mem_cons_self

/-- A name that is kept leads to something of what is left of it. -/
theorem KeepsName.resolve (keeps : KeepsName files cwd limit path name)
    (wellFormed : files.WellFormed) (entry : Entry files place name)
    (inside : path.length ≤ limit) :
    ∃ kept, ∀ after : Files, after.LeadsToDirectory cwd path place →
      after.resolve cwd (joinPath limit path name) = some (place ++ [kept]) := by
  rw [KeepsName, if_pos inside] at keeps
  simp only [List.mem_cons, List.not_mem_nil, or_false, not_or] at keeps
  have proper := wellFormed.proper place name entry.there
  have short : path.length < limit := by
    by_contra long
    rw [Nat.sub_eq_zero_of_le (by omega), List.take_zero] at keeps
    exact keeps.1 rfl
  refine ⟨name.take (limit - (path.length + 1)), fun after leadsAfter => ?_⟩
  rw [resolve_joinPath short leadsAfter proper.noSlash, Path.step, if_neg, if_neg keeps.2.2]
  rintro (empty | dot)
  · exact keeps.1 empty
  · exact keeps.2.1 dot

/-- A recursive call is for something below, and stays what it is meanwhile. -/
theorem KeepsNames.below (keeps : KeepsNames files cwd limit start) (wellFormed : files.WellFormed)
    {names : List Bytes} (reached : Reaches files cwd limit start path (source ++ names))
    {after : Files} (kept : KeepsSource cwd source (start.take limit) files after)
    (entry : Entry files (source ++ names) name) {inner : Place}
    (leads : after.LeadsToDirectory cwd (joinPath limit path name) inner) :
    ∃ more, more ≠ [] ∧ inner = source ++ (names ++ more) ∧
      files.LeadsToDirectory cwd (joinPath limit path name) inner := by
  have keepsHere := keeps path _ name reached entry
  rcases Nat.lt_or_ge limit path.length with long | inside
  · rcases reached.short with rfl | short
    · rw [joinPath_of_le long.le] at leads ⊢
      have same : files.LeadsToDirectory cwd (path.take limit) inner := by
        rcases Files.isDirectory_iff.mp leads.2 with ⟨size, mtime, node⟩
        have found := Files.lookup_eq_some.mpr ⟨leads.1, node⟩
        rw [kept.cut] at found
        rcases Files.lookup_eq_some.mp found with ⟨resolved, there⟩
        exact ⟨resolved, Files.isDirectory_iff.mpr ⟨size, mtime, there⟩⟩
      rw [KeepsName, if_neg (by omega)] at keepsHere
      rcases keepsHere inner same with ⟨outer, more, nonempty, resolved, resolvedInner⟩
      rw [reached.leads.1] at resolved
      cases resolved
      rw [same.1] at resolvedInner
      cases resolvedInner
      exact ⟨more, nonempty, List.append_assoc _ _ _, same⟩
    · exact absurd long (by omega)
  · rcases keepsHere.resolve wellFormed entry inside with ⟨left, resolves⟩
    have resolved := resolves after (kept.leads reached.leads)
    rw [leads.1] at resolved
    cases resolved
    have same : files.isDirectory (source ++ names ++ [left]) = true := by
      rcases Files.isDirectory_iff.mp leads.2 with ⟨size, mtime, there⟩
      rw [List.append_assoc, kept.source] at there
      rw [List.append_assoc]
      exact Files.isDirectory_iff.mpr ⟨size, mtime, there⟩
    exact ⟨[left], List.cons_ne_nil _ _, List.append_assoc _ _ _,
      resolves files reached.leads, same⟩

/-- A recursive call is for something below the directory that it is made from,
and no recursion comes to the end of its bound. -/
def descending (files : Files) (cwd source : Place) (cut : Bytes) : Safety cwd source cut where
  allowed := fun call state => match call with
    | .descend outer inner => StrictlyBelow state.files cwd outer inner
    | .tooDeep => False
    | _ => True
  invariant := fun state => KeepsSource cwd source cut files state.files
  plain := by
    intro call state plain
    cases call with
    | descend outer inner => exact plain.elim
    | tooDeep => exact plain.elim
    | _ => trivial
  keeps := fun _ _ kept keptMore => kept.trans keptMore
  hands := fun _ _ _ _ _ _ kept _ _ => kept

variable {Arg Result : Type} {hands : Bool → Bool} {targetDir : Bytes → Arg → Bytes}
  {program : Nat → Bytes → Arg → Sys Result}

/-- Where names are kept, a recursion goes down the tree only, and comes to its
end. -/
theorem DirectoryRecursion.descends (recursion : DirectoryRecursion hands limit targetDir program)
    (keeps : KeepsNames files cwd limit start) (wellFormed : files.WellFormed) {height : Nat}
    (bounded : ∀ names, files (source ++ names) ≠ none → names.length ≤ height) :
    ∀ depth names path arg (state : TreeState),
      Reaches files cwd limit start path (source ++ names) →
      KeepsSource cwd source (start.take limit) files state.files →
      height < depth + names.length →
      (descending files cwd source (start.take limit)).Tame (program depth path arg) state
  | 0, names, path, arg, state, reached, _, enough => by
      rcases Files.isDirectory_iff.mp reached.leads.2 with ⟨size, mtime, there⟩
      have below := bounded names (by rw [there]; exact Option.some_ne_none _)
      omega
  | depth + 1, names, path, arg, state, reached, kept, enough => by
      have leadsNow := kept.leads reached.leads
      apply recursion.calls (descending files cwd source (start.take limit)) kept
      · intro other leads
        exact Option.some.inj (leads.1.symm.trans leadsNow.1)
      intro name entry after keptAll keptAfter
      refine ⟨fun inner leads => ?_, fun _ _ => trivial⟩
      have entryFirst : Entry files (source ++ names) name := by
        refine ⟨?_, entry.noDot, entry.noDotDot⟩
        have there := entry.there
        rw [List.append_assoc, kept.source] at there
        rw [List.append_assoc]
        exact there
      rcases keeps.below wellFormed reached keptAll entryFirst leads with
        ⟨more, nonempty, rfl, leadsFirst⟩
      refine ⟨⟨source ++ names, more, nonempty, (keptAll.leads reached.leads).1, ?_⟩,
        fun innerArg _ last keptLast _ => ?_⟩
      · rw [List.append_assoc]
        exact leads.1
      · apply DirectoryRecursion.descends recursion keeps wellFormed bounded depth (names ++ more)
        · exact .entry reached entryFirst leadsFirst
        · exact keptLast
        · rw [List.length_append]
          have := List.length_pos_iff.mpr nonempty
          omega

/-- A recursion that is good for its start is good wherever it comes to. -/
theorem DirectoryRecursion.descends_reached
    (recursion : DirectoryRecursion hands limit targetDir program)
    (finite : {there | files there ≠ none}.Finite) {arg : Arg} {depth : Nat} {handed : List Handed}
    (allows : (descending files cwd source (start.take limit)).Allows (program depth start arg)
      ⟨files, handed⟩)
    (reached : Reaches files cwd limit start path place) :
    ∃ inner arg', (descending files cwd source (start.take limit)).Allows
      (program (inner + 1) path arg') ⟨files, handed⟩ := by
  have positive : ∀ {depth path arg}, (descending files cwd source (start.take limit)).Allows
      (program depth path arg) ⟨files, handed⟩ → ∃ inner, depth = inner + 1 := by
    intro depth path arg allows
    cases depth with
    | zero =>
        rw [recursion.stops] at allows
        exact allows.1.elim
    | succ inner => exact ⟨inner, rfl⟩
  induction reached with
  | start leads =>
      rcases positive allows with ⟨inner, rfl⟩
      exact ⟨inner, arg, allows⟩
  | entry reached entry leads hypothesis =>
      rcases hypothesis with ⟨inner, arg', allowsHere⟩
      rcases ((recursion.enters _ finite allowsHere reached.leads entry).1 _ leads).2 with
        ⟨innerArg, _, allowsInner⟩
      rcases positive allowsInner with ⟨innermost, rfl⟩
      exact ⟨innermost, innerArg, allowsInner⟩

/-- For the path that an entry leaves nothing of, the call is not for something
below. -/
theorem KeepsName.of_below (wellFormed : files.WellFormed)
    (leads : files.LeadsToDirectory cwd path place) (entry : Entry files place name)
    (below : ∀ inner, files.LeadsToDirectory cwd (joinPath limit path name) inner →
      StrictlyBelow files cwd path (joinPath limit path name)) :
    KeepsName files cwd limit path name := by
  have proper := wellFormed.proper place name entry.there
  have notShorter : ∀ inner, files.LeadsToDirectory cwd (joinPath limit path name) inner →
      place.length < inner.length := by
    intro inner leadsInner
    rcases below inner leadsInner with ⟨outer, more, nonempty, resolved, resolvedInner⟩
    rw [leads.1] at resolved
    cases resolved
    rw [leadsInner.1] at resolvedInner
    cases resolvedInner
    have := List.length_pos_iff.mpr nonempty
    rw [List.length_append]
    omega
  rw [KeepsName]
  split
  · rename_i inside
    intro lost
    rcases Nat.lt_or_ge path.length limit with short | full
    · have resolved := resolve_joinPath short leads proper.noSlash
      simp only [List.mem_cons, List.not_mem_nil, or_false] at lost
      rw [Path.step] at resolved
      split at resolved
      · exact absurd (notShorter place ⟨resolved, leads.2⟩) (Nat.lt_irrefl _)
      · rename_i other
        rcases lost with empty | dot | dotDot
        · exact absurd (Or.inl empty) other
        · exact absurd (Or.inr dot) other
        rw [if_pos dotDot] at resolved
        have shorter := notShorter place.dropLast
          ⟨resolved, wellFormed.dropLast leads.2⟩
        rw [List.length_dropLast] at shorter
        omega
    · have same := joinPath_of_le full name
      rw [List.take_of_length_le inside] at same
      exact absurd (notShorter place (by rw [same]; exact leads)) (Nat.lt_irrefl _)
  · rename_i outside
    have long : limit ≤ path.length := by omega
    have same := joinPath_of_le long name
    intro inner leadsInner
    rw [← same] at leadsInner ⊢
    exact below inner leadsInner

/-- A recursion ends, and each of its calls is for something below the directory
of the call before, exactly when names are kept. -/
theorem DirectoryRecursion.descends_iff
    (recursion : DirectoryRecursion hands limit targetDir program)
    (wellFormed : files.WellFormed) (finite : {there | files there ≠ none}.Finite)
    (leads : files.LeadsToDirectory cwd start source) (arg : Arg) (handed : List Handed) :
    (∃ depth, (descending files cwd source (start.take limit)).Allows (program depth start arg)
      ⟨files, handed⟩) ↔ KeepsNames files cwd limit start := by
  constructor
  · rintro ⟨depth, allows⟩ path place name reached entry
    rcases recursion.descends_reached finite allows reached with ⟨inner, arg', allowsHere⟩
    apply KeepsName.of_below wellFormed reached.leads entry
    intro inner leadsInner
    exact ((recursion.enters _ finite allowsHere reached.leads entry).1 inner leadsInner).1
  · intro keeps
    rcases (finite.image List.length).bddAbove with ⟨height, upper⟩
    have bounded : ∀ names, files (source ++ names) ≠ none → names.length ≤ height := by
      intro names there
      have below := upper ⟨source ++ names, there, rfl⟩
      rw [List.length_append] at below
      omega
    refine ⟨height + 1, ?_⟩
    have tame := recursion.descends keeps wellFormed bounded (height + 1) [] start arg
      ⟨files, handed⟩
      (by rw [List.append_nil]; exact .start leads) .refl (by simp)
    exact tame.mono fun _ _ _ => trivial

end Proof

end Apue.Sync
