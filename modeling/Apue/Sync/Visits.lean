import Apue.Foundation.Expansion
import Apue.Sync.PlainPrograms

/-! # What `sync_directory` comes across

`sync_directory` visits the entries of the source one by one: it lists a directory,
looks at an entry, and has a file synchronised. Each of these may fail. The record
of a run shows what became of the entries.
-/

namespace Apue.Sync.SimpleRsync

open Apue.Foundation

inductive Visit
  | stat (path : Bytes)
  | readDirectory (path : Bytes)
  | descend (outer inner : Bytes)
  | syncFile (directory name source target : Bytes)
  | tooDeep

def Answer : Visit → Type
  | .stat _ => Option Stat
  | .readDirectory _ => Option (List Bytes)
  | .descend _ _ => Unit
  | .syncFile _ _ _ _ => Int
  | .tooDeep => Empty

/-- The system calls of a visit. -/
def Visit.program (dryRun : Bool) : (visit : Visit) → Sys (Answer visit)
  | .stat path => Sys.stat path
  | .readDirectory path => Sys.readDirectory path
  | .descend outer inner => Sys.descend outer inner
  | .syncFile directory name source target => do
      Sys.handing directory name source target
      SimpleRsync.syncFile source target dryRun
  | .tooDeep => Sys.tooDeep

namespace Visits

def stat (path : Bytes) : Program Visit Answer (Option Stat) := .perform (Visit.stat path)

def readDirectory (path : Bytes) : Program Visit Answer (Option (List Bytes)) :=
  .perform (Visit.readDirectory path)

def descend (outer inner : Bytes) : Program Visit Answer Unit :=
  .perform (Visit.descend outer inner)

def syncFile (directory name source target : Bytes) : Program Visit Answer Int :=
  .perform (Visit.syncFile directory name source target)

def tooDeep : Program Visit Answer Int := .call Visit.tooDeep fun never : Empty => nomatch never

end Visits

/-! ## The recursion as a program of visits -/

def entryVisits (recurse : Bytes → Bytes → Program Visit Answer Int)
    (srcDir dstDir name : Bytes) : Program Visit Answer Int :=
  if name = Path.DOT ∨ name = Path.DOTDOT then return 0
  else do
    let srcPath := joinPath SimpleRsync.JOIN_LIMIT srcDir name
    let dstPath := joinPath SimpleRsync.JOIN_LIMIT dstDir name
    match ← Visits.stat srcPath with
    | none => return 0
    | some statbuf =>
        if statbuf.isDirectory then do
          Visits.descend srcDir srcPath
          recurse srcPath dstPath
        else Visits.syncFile srcDir name srcPath dstPath

def entriesVisits (visit : Bytes → Program Visit Answer Int) :
    List Bytes → Program Visit Answer Int
  | [] => return 0
  | name :: names => do
      if (← visit name) = -1 then return -1
      entriesVisits visit names

def directoryVisits : Nat → Bytes → Bytes → Program Visit Answer Int
  | 0, _, _ => Visits.tooDeep
  | depth + 1, srcDir, dstDir => do
      match ← Visits.readDirectory srcDir with
      | none => return -1
      | some names => entriesVisits (entryVisits (directoryVisits depth) srcDir dstDir) names

section Expansion

variable {dryRun : Bool}

theorem expand_stat (path : Bytes) :
    (Visits.stat path).expand (Visit.program dryRun) = Sys.stat path :=
  Program.expand_perform (Visit.stat path)

theorem expand_readDirectory (path : Bytes) :
    (Visits.readDirectory path).expand (Visit.program dryRun) = Sys.readDirectory path :=
  Program.expand_perform (Visit.readDirectory path)

theorem expand_descend (outer inner : Bytes) :
    (Visits.descend outer inner).expand (Visit.program dryRun) = Sys.descend outer inner :=
  Program.expand_perform (Visit.descend outer inner)

theorem expand_syncFile (directory name source target : Bytes) :
    (Visits.syncFile directory name source target).expand (Visit.program dryRun) =
      (Sys.handing directory name source target >>= fun _ =>
        SimpleRsync.syncFile source target dryRun) :=
  Program.expand_perform (Visit.syncFile directory name source target)

theorem expand_entriesVisits {visit : Bytes → Program Visit Answer Int} {sys : Bytes → Sys Int}
    (same : ∀ name, (visit name).expand (Visit.program dryRun) = sys name) (names : List Bytes) :
    (entriesVisits visit names).expand (Visit.program dryRun) = syncEntries sys names := by
  induction names with
  | nil => rfl
  | cons name names hypothesis =>
      rw [entriesVisits, Program.expand_bind, syncEntries, same]
      congr 1
      funext result
      split
      · rfl
      · exact hypothesis

/-- The recursion is what its visits are made of. -/
theorem expand_directoryVisits (depth : Nat) (srcDir dstDir : Bytes) :
    (directoryVisits depth srcDir dstDir).expand (Visit.program dryRun) =
      SimpleRsync.syncDirectory dryRun depth srcDir dstDir := by
  induction depth generalizing srcDir dstDir with
  | zero => exact congrArg (Program.call SysCall.tooDeep) (funext fun never => nomatch never)
  | succ depth hypothesis =>
      rw [directoryVisits, Program.expand_bind, expand_readDirectory, syncDirectory]
      congr 1
      funext listed
      cases listed with
      | none => rfl
      | some names =>
          apply expand_entriesVisits
          intro name
          rw [entryVisits]
          split
          · rfl
          dsimp only
          rw [Program.expand_bind, expand_stat]
          congr 1
          funext found
          cases found with
          | none => rfl
          | some statbuf =>
              dsimp only
              split
              · rw [Program.expand_bind, expand_descend]
                congr 1
                funext _
                exact hypothesis _ _
              · exact expand_syncFile _ _ _ _

end Expansion

/-! ## The source and the record of a run -/

/-- What there is under the paths of the source. -/
structure Source where
  isDirectory : Bytes → Bool
  names : Bytes → List Bytes

def entryPath (directory name : Bytes) : Bytes := directory ++ Path.SLASH :: name

section Source

variable (source : Source) (root : Bytes)

/-- An entry of a directory, other than the directory itself and its parent. -/
def Source.HasEntry (directory name : Bytes) : Prop :=
  name ∈ source.names directory ∧ name ≠ Path.DOT ∧ name ≠ Path.DOTDOT

inductive Source.Directory : Bytes → Prop
  | root : Source.Directory root
  | entry {directory name : Bytes} (outer : Source.Directory directory)
      (hasEntry : source.HasEntry directory name)
      (isDirectory : source.isDirectory (entryPath directory name) = true) :
      Source.Directory (entryPath directory name)

inductive Source.RegularFile : Bytes → Prop
  | entry {directory name : Bytes} (outer : source.Directory root directory)
      (hasEntry : source.HasEntry directory name)
      (regular : source.isDirectory (entryPath directory name) = false) :
      Source.RegularFile (entryPath directory name)

/-- A call that looks at the source fails, or it tells what is there. -/
def Source.Told : (call : SysCall) → SysResponse call → Prop
  | .stat path, found => ∀ directory name, source.Directory root directory →
      source.HasEntry directory name → path = entryPath directory name →
      ∀ statbuf, found = some statbuf → statbuf.isDirectory = source.isDirectory path
  | .readDirectory path, listed => source.Directory root path → ∀ names, listed = some names →
      ∀ name, name ≠ Path.DOT → name ≠ Path.DOTDOT → (name ∈ names ↔ name ∈ source.names path)
  | _, _ => True

/-- The directories are not deeper than this, and the paths of the entries are short
enough. -/
def Source.Shallow : Nat → Bytes → Prop
  | 0, _ => False
  | depth + 1, directory => ∀ name, source.HasEntry directory name →
      (entryPath directory name).length ≤ SimpleRsync.JOIN_LIMIT ∧
      (source.isDirectory (entryPath directory name) = true →
        Source.Shallow depth (entryPath directory name))

end Source

/-- An entry could not be looked at. -/
def Unexamined : (visit : Visit) → Answer visit → Prop
  | .stat _, found => found = (none : Option Stat)
  | _, _ => False

/-- A directory could not be listed, or a file not be synchronised. -/
def Stopping : (visit : Visit) → Answer visit → Prop
  | .readDirectory _, listed => listed = (none : Option (List Bytes))
  | .syncFile _ _ _ _, result => result = (-1 : Int)
  | _, _ => False

/-- The file was found to be the same at its destination, or it was copied. -/
def Synchronised (history : List (Sigma Answer)) (path : Bytes) : Prop :=
  ∃ directory name target,
    (⟨.syncFile directory name path target, (0 : Int)⟩ : Sigma Answer) ∈ history

/-- The result of a run says what became of the source. -/
structure ResultRight (source : Source) (root : Bytes) (history : List (Sigma Answer))
    (result : Int) : Prop where
  complete : result = 0 → ∀ path, source.RegularFile root path → Synchronised history path
  reported : ∀ event ∈ history, Unexamined event.1 event.2 ∨ Stopping event.1 event.2 →
    result = -1

/-- The visits of a run of `sync_directory`, in some semantics of the system calls. -/
abbrev VisitsMade {State : Type}
    (step : (call : SysCall) → State → SysResponse call → State → Prop) (depth : Nat)
    (srcDir dstDir : Bytes) : State → List (Sigma Answer) → Int → State → Prop :=
  (directoryVisits depth srcDir dstDir).Recorded (Program.Performs (Visit.program false) step)

theorem runs_iff_visitsMade {State : Type}
    {step : (call : SysCall) → State → SysResponse call → State → Prop} {depth : Nat}
    {srcDir dstDir : Bytes} {before after : State} {result : Int} :
    (SimpleRsync.syncDirectory false depth srcDir dstDir).Runs step before result after ↔
      ∃ history, VisitsMade step depth srcDir dstDir before history result after := by
  rw [← expand_directoryVisits]
  exact Program.runs_expand_iff

/-! ## The parts of a record -/

section Parts

variable {State : Type} {step : (visit : Visit) → State → Answer visit → State → Prop}
  {before after : State} {history : List (Sigma Answer)} {result : Int}
  {srcDir dstDir name : Bytes}

theorem recorded_dots {recurse : Bytes → Bytes → Program Visit Answer Int}
    (isDots : name = Path.DOT ∨ name = Path.DOTDOT)
    (recorded : (entryVisits recurse srcDir dstDir name).Recorded step before history result after) :
    history = [] ∧ result = 0 := by
  rw [entryVisits, if_pos isDots] at recorded
  cases recorded with
  | done => exact ⟨rfl, rfl⟩

/-- An entry cannot be looked at, or it is a directory and the recursion goes on, or it
is a file. -/
theorem recorded_entryVisits {recurse : Bytes → Bytes → Program Visit Answer Int}
    (noDots : ¬ (name = Path.DOT ∨ name = Path.DOTDOT))
    (recorded : (entryVisits recurse srcDir dstDir name).Recorded step before history result after) :
    ∃ found : Option Stat, ∃ later : List (Sigma Answer),
      history = ⟨.stat (joinPath SimpleRsync.JOIN_LIMIT srcDir name), found⟩ :: later ∧
      match found with
      | none => later = [] ∧ result = 0
      | some statbuf =>
          if statbuf.isDirectory then ∃ between inner,
            later = ⟨.descend srcDir (joinPath SimpleRsync.JOIN_LIMIT srcDir name), ()⟩ :: inner ∧
            (recurse (joinPath SimpleRsync.JOIN_LIMIT srcDir name)
              (joinPath SimpleRsync.JOIN_LIMIT dstDir name)).Recorded step between inner result after
          else later = [⟨.syncFile srcDir name (joinPath SimpleRsync.JOIN_LIMIT srcDir name)
            (joinPath SimpleRsync.JOIN_LIMIT dstDir name), result⟩] := by
  rw [entryVisits, if_neg noDots] at recorded
  rcases recorded.perform_bind with ⟨found, between, later, rfl, continued⟩
  refine ⟨found, later, rfl, ?_⟩
  cases found with
  | none =>
      cases continued with
      | done => exact ⟨rfl, rfl⟩
  | some statbuf =>
      dsimp only at continued ⊢
      split at continued
      · rename_i isDirectory
        rw [if_pos isDirectory]
        rcases continued.perform_bind with ⟨_, last, inner, rfl, recursion⟩
        exact ⟨last, inner, rfl, recursion⟩
      · rename_i isFile
        rw [if_neg isFile]
        cases continued with
        | call _ rest =>
            cases rest with
            | done => rfl

theorem recorded_directoryVisits {depth : Nat}
    (recorded : (directoryVisits depth srcDir dstDir).Recorded step before history result after) :
    ∃ listed : Option (List Bytes), ∃ later : List (Sigma Answer),
      history = ⟨.readDirectory srcDir, listed⟩ :: later ∧
      match listed with
      | none => later = [] ∧ result = -1
      | some names => ∃ between shallower, depth = shallower + 1 ∧
          (entriesVisits (entryVisits (directoryVisits shallower) srcDir dstDir) names).Recorded
            step between later result after := by
  cases depth with
  | zero =>
      cases recorded with
      | call _ rest => exact nomatch (‹Answer Visit.tooDeep› : Empty)
  | succ depth =>
      rcases recorded.perform_bind with ⟨listed, between, later, rfl, continued⟩
      refine ⟨listed, later, rfl, ?_⟩
      cases listed with
      | none =>
          cases continued with
          | done => exact ⟨rfl, rfl⟩
      | some names => exact ⟨between, depth, rfl, continued⟩

/-- Where the loop goes to its end, it has visited every entry. -/
theorem recorded_each {visit : Bytes → Program Visit Answer Int} {names : List Bytes}
    (recorded : (entriesVisits visit names).Recorded step before history result after)
    (succeeds : result ≠ -1) : ∀ name ∈ names, ∃ first part value last, part ⊆ history ∧
      (visit name).Recorded step first part value last ∧ value ≠ -1 := by
  induction names generalizing before history with
  | nil => exact nofun
  | cons name names hypothesis =>
      rcases recorded.bind with ⟨part, later, value, between, rfl, visited, continued⟩
      split at continued
      · cases continued with
        | done => exact absurd rfl succeeds
      · rename_i valueSucceeds
        intro other member
        cases member with
        | head =>
            exact ⟨before, part, value, between, List.subset_append_left _ _, visited, valueSucceeds⟩
        | tail _ among =>
            rcases hypothesis continued other among with
              ⟨first, inner, innerValue, last, within, visitedOther, innerSucceeds⟩
            exact ⟨first, inner, innerValue, last,
              fun event member => List.mem_append_right _ (within member), visitedOther, innerSucceeds⟩

/-! ### The result -/

/-- The result is 0, or it is -1 and something stopped the recursion. -/
def Settled (history : List (Sigma Answer)) (result : Int) : Prop :=
  (result = 0 ∧ ∀ event ∈ history, ¬ Stopping event.1 event.2) ∨
    (result = -1 ∧ ∃ event ∈ history, Stopping event.1 event.2)

/-- What is known of the answer to a visit: it tells what there is in the source, and
`sync_file` returns 0 or -1. -/
def Shown (source : Source) (root : Bytes) : (visit : Visit) → Answer visit → Prop
  | .stat path, found => source.Told root (.stat path) found
  | .readDirectory path, listed => source.Told root (.readDirectory path) listed
  | .syncFile _ _ _ _, result => result = (0 : Int) ∨ result = (-1 : Int)
  | _, _ => True

variable {source : Source} {root : Bytes}

theorem Settled.cons {event : Sigma Answer} (settled : Settled history result)
    (continues : ¬ Stopping event.1 event.2) : Settled (event :: history) result := by
  rcases settled with ⟨isZero, none⟩ | ⟨isFailure, stopping, member, stops⟩
  · refine Or.inl ⟨isZero, fun other member => ?_⟩
    rcases List.mem_cons.mp member with rfl | earlier
    · exact continues
    · exact none other earlier
  · exact Or.inr ⟨isFailure, stopping, List.mem_cons_of_mem _ member, stops⟩

theorem Settled.append {later : List (Sigma Answer)} {value : Int} (settled : Settled history value)
    (continues : value ≠ -1) (rest : Settled later result) : Settled (history ++ later) result := by
  rcases settled with ⟨_, none⟩ | ⟨isFailure, _⟩
  · rcases rest with ⟨isZero, noneLater⟩ | ⟨isFailure, stopping, member, stops⟩
    · refine Or.inl ⟨isZero, fun event member => ?_⟩
      rcases List.mem_append.mp member with earlier | among
      · exact none event earlier
      · exact noneLater event among
    · exact Or.inr ⟨isFailure, stopping, List.mem_append_right _ member, stops⟩
  · exact absurd isFailure continues

theorem settled_entriesVisits {visit : Bytes → Program Visit Answer Int}
    (each : ∀ name first part value last, (visit name).Recorded step first part value last →
      (∀ event ∈ part, Shown source root event.1 event.2) → Settled part value)
    {names : List Bytes}
    (recorded : (entriesVisits visit names).Recorded step before history result after)
    (shown : ∀ event ∈ history, Shown source root event.1 event.2) : Settled history result := by
  induction names generalizing before history with
  | nil =>
      cases recorded with
      | done => exact Or.inl ⟨rfl, nofun⟩
  | cons name names hypothesis =>
      rcases recorded.bind with ⟨part, later, value, between, rfl, visited, continued⟩
      have first := each name _ part value _ visited
        fun event member => shown event (List.mem_append_left _ member)
      split at continued
      · rename_i failed
        subst failed
        cases continued with
        | done =>
            rw [List.append_nil]
            exact first
      · rename_i succeeds
        apply first.append succeeds
        exact hypothesis continued fun event member => shown event (List.mem_append_right _ member)

/-- The result is -1 exactly where a directory could not be listed or a file not be
synchronised. -/
theorem settled_directoryVisits {depth : Nat}
    (recorded : (directoryVisits depth srcDir dstDir).Recorded step before history result after)
    (shown : ∀ event ∈ history, Shown source root event.1 event.2) : Settled history result := by
  induction depth generalizing srcDir dstDir before history result after with
  | zero =>
      rcases recorded_directoryVisits recorded with ⟨listed, later, rfl, rest⟩
      cases listed with
      | none =>
          rcases rest with ⟨_, isFailure⟩
          exact Or.inr ⟨isFailure, _, List.mem_cons_self, rfl⟩
      | some names =>
          rcases rest with ⟨_, _, impossible, _⟩
          exact absurd impossible (Nat.succ_ne_zero _).symm
  | succ depth hypothesis =>
      rcases recorded_directoryVisits recorded with ⟨listed, later, rfl, rest⟩
      cases listed with
      | none => exact Or.inr ⟨rest.2, _, List.mem_cons_self, rfl⟩
      | some names =>
          rcases rest with ⟨between, shallower, isDepth, entries⟩
          cases isDepth
          have continues : ¬ Stopping (.readDirectory srcDir) (some names : Option (List Bytes)) :=
            Option.some_ne_none names
          apply Settled.cons _ continues
          apply @settled_entriesVisits _ _ _ _ _ _ source root _ _ _ entries
            fun event member => shown event (List.mem_cons_of_mem _ member)
          intro name first part value last visited partShown
          by_cases isDots : name = Path.DOT ∨ name = Path.DOTDOT
          · rcases recorded_dots isDots visited with ⟨rfl, rfl⟩
            exact Or.inl ⟨rfl, nofun⟩
          · rcases recorded_entryVisits isDots visited with ⟨found, inner, rfl, shape⟩
            apply Settled.cons _ id
            cases found with
            | none =>
                rcases shape with ⟨rfl, rfl⟩
                exact Or.inl ⟨rfl, nofun⟩
            | some statbuf =>
                dsimp only at shape
                split at shape
                · rcases shape with ⟨start, deeper, rfl, recursion⟩
                  apply Settled.cons _ id
                  apply hypothesis recursion
                  intro event member
                  exact partShown event (List.mem_cons_of_mem _ (List.mem_cons_of_mem _ member))
                · subst shape
                  rcases partShown _ (List.mem_cons_of_mem _ List.mem_cons_self) with isZero | failed
                  · refine Or.inl ⟨isZero, fun event member stops => ?_⟩
                    rw [List.mem_singleton.mp member] at stops
                    have impossible : (0 : Int) = -1 := isZero.symm.trans stops
                    exact absurd impossible (by decide)
                  · exact Or.inr ⟨failed, _, List.mem_cons_self, failed⟩

/-! ### The files -/

theorem joinPath_fits {limit : Nat} {directory name : Bytes}
    (fits : (entryPath directory name).length ≤ limit) :
    joinPath limit directory name = entryPath directory name :=
  List.take_of_length_le fits

theorem entriesVisits_avoids {avoided : Visit → Prop} {visit : Bytes → Program Visit Answer Int}
    (each : ∀ name, (visit name).Avoids avoided) (names : List Bytes) :
    (entriesVisits visit names).Avoids avoided := by
  induction names with
  | nil => trivial
  | cons name names hypothesis =>
      apply (each name).bind
      intro value
      split
      · trivial
      · exact hypothesis

/-- A path that goes to `sync_file` fits into its buffer. -/
theorem directoryVisits_avoids (depth : Nat) (srcDir dstDir : Bytes) :
    (directoryVisits depth srcDir dstDir).Avoids fun visit => ∃ directory name source target,
      visit = .syncFile directory name source target ∧ SimpleRsync.JOIN_LIMIT < source.length := by
  induction depth generalizing srcDir dstDir with
  | zero => exact ⟨nofun, fun never => nomatch never⟩
  | succ depth hypothesis =>
      apply Program.Avoids.call (by nofun)
      intro listed
      cases listed with
      | none => trivial
      | some names =>
          apply entriesVisits_avoids
          intro name
          rw [entryVisits]
          split
          · trivial
          apply Program.Avoids.call (by nofun)
          intro found
          cases found with
          | none => trivial
          | some statbuf =>
              dsimp only
              split
              · exact Program.Avoids.call (by nofun) fun _ => hypothesis _ _
              · refine ⟨?_, fun _ => trivial⟩
                rintro ⟨directory, other, source, target, same, long⟩
                cases same
                exact absurd (List.length_take_le _ _) (Nat.not_le.mpr long)

/-- Where no entry is passed over, the recursion comes to each entry of a directory. -/
theorem visited_entry {depth : Nat} {directory : Bytes}
    (recorded : (directoryVisits depth directory dstDir).Recorded step before history result after)
    (succeeds : result ≠ -1) (shown : ∀ event ∈ history, Shown source root event.1 event.2)
    (examined : ∀ event ∈ history, ¬ Unexamined event.1 event.2)
    (reached : source.Directory root directory) (hasEntry : source.HasEntry directory name)
    (fits : (entryPath directory name).length ≤ SimpleRsync.JOIN_LIMIT) :
    if source.isDirectory (entryPath directory name) then
      ∃ innerDepth target first part value last, part ⊆ history ∧ value ≠ -1 ∧
        (directoryVisits innerDepth (entryPath directory name) target).Recorded step first part
          value last
    else Synchronised history (entryPath directory name) := by
  rcases recorded_directoryVisits recorded with ⟨listed, later, rfl, rest⟩
  cases listed with
  | none => exact absurd rest.2 succeeds
  | some names =>
      rcases rest with ⟨between, shallower, _, entries⟩
      have told := shown _ List.mem_cons_self reached names rfl name hasEntry.2.1 hasEntry.2.2
      rcases recorded_each entries succeeds name (told.mpr hasEntry.1) with
        ⟨first, part, value, last, within, visited, valueSucceeds⟩
      have inside : ∀ event ∈ part, event ∈ ⟨.readDirectory directory, some names⟩ :: later :=
        fun event member => List.mem_cons_of_mem _ (within member)
      have noDots : ¬ (name = Path.DOT ∨ name = Path.DOTDOT) := not_or.mpr hasEntry.2
      rcases recorded_entryVisits noDots visited with ⟨found, inner, rfl, shape⟩
      rw [joinPath_fits fits] at shape inside
      cases found with
      | none => exact absurd rfl (examined _ (inside _ List.mem_cons_self))
      | some statbuf =>
          have same := shown _ (inside _ List.mem_cons_self) directory name reached hasEntry rfl
            statbuf rfl
          dsimp only at shape same
          rw [same] at shape
          split
          · rename_i isDirectory
            rw [if_pos isDirectory] at shape
            rcases shape with ⟨start, deeper, rfl, recursion⟩
            refine ⟨_, _, _, deeper, value, _, fun event member => ?_, valueSucceeds, recursion⟩
            exact inside event (List.mem_cons_of_mem _ (List.mem_cons_of_mem _ member))
          · rename_i isFile
            rw [if_neg isFile] at shape
            subst shape
            have called := inside _ (List.mem_cons_of_mem _ List.mem_cons_self)
            rcases shown _ called with isZero | failed
            · have isResult : value = 0 := isZero
              subst isResult
              exact ⟨directory, name, joinPath SimpleRsync.JOIN_LIMIT dstDir name, called⟩
            · exact absurd failed valueSucceeds

theorem visited_directory {depth : Nat} {directory : Bytes}
    (recorded : (directoryVisits depth root dstDir).Recorded step before history result after)
    (succeeds : result ≠ -1) (shown : ∀ event ∈ history, Shown source root event.1 event.2)
    (examined : ∀ event ∈ history, ¬ Unexamined event.1 event.2)
    (reached : source.Directory root directory)
    (fits : directory = root ∨ directory.length ≤ SimpleRsync.JOIN_LIMIT) :
    ∃ innerDepth target first part value last, part ⊆ history ∧ value ≠ -1 ∧
      (directoryVisits innerDepth directory target).Recorded step first part value last := by
  induction reached with
  | root => exact ⟨depth, dstDir, before, history, result, after, fun _ member => member, succeeds, recorded⟩
  | @entry outer name reachedOuter hasEntry isDirectory hypothesis =>
      rcases fits with isRoot | short
      · rw [isRoot]
        exact ⟨depth, dstDir, before, history, result, after, fun _ member => member, succeeds, recorded⟩
      · have shorter : outer.length ≤ (entryPath outer name).length := by
          rw [entryPath, List.length_append]
          exact Nat.le_add_right _ _
        rcases hypothesis (Or.inr (shorter.trans short)) with
          ⟨outerDepth, target, first, part, value, last, within, valueSucceeds, visited⟩
        have inner := visited_entry visited valueSucceeds (fun event member => shown event (within member))
          (fun event member => examined event (within member)) reachedOuter hasEntry short
        rw [if_pos isDirectory] at inner
        rcases inner with
          ⟨innerDepth, innerTarget, start, deeper, code, finish, inside, codeSucceeds, recursion⟩
        exact ⟨innerDepth, innerTarget, start, deeper, code, finish,
          fun event member => within (inside member), codeSucceeds, recursion⟩

theorem synchronised_file {depth : Nat} {path : Bytes}
    (recorded : (directoryVisits depth root dstDir).Recorded step before history result after)
    (succeeds : result ≠ -1) (shown : ∀ event ∈ history, Shown source root event.1 event.2)
    (examined : ∀ event ∈ history, ¬ Unexamined event.1 event.2)
    (isFile : source.RegularFile root path) (fits : path.length ≤ SimpleRsync.JOIN_LIMIT) :
    Synchronised history path := by
  rcases isFile with ⟨reached, hasEntry, regular⟩
  rename_i directory name
  have shorter : directory.length ≤ (entryPath directory name).length := by
    rw [entryPath, List.length_append]
    exact Nat.le_add_right _ _
  rcases visited_directory recorded succeeds shown examined reached (Or.inr (shorter.trans fits)) with
    ⟨innerDepth, target, first, part, value, last, within, valueSucceeds, visited⟩
  have file := visited_entry visited valueSucceeds (fun event member => shown event (within member))
    (fun event member => examined event (within member)) reached hasEntry fits
  rw [if_neg (by rw [regular]; exact Bool.false_ne_true)] at file
  rcases file with ⟨outer, entry, copy, member⟩
  exact ⟨outer, entry, copy, within member⟩

/-! ### The depth -/

theorem entriesVisits_always {allowed : Visit → State → Prop}
    {visit : Bytes → Program Visit Answer Int} {names : List Bytes}
    (each : ∀ name ∈ names, ∀ between,
      (visit name).Always step allowed (fun _ _ => True) between) (state : State) :
    (entriesVisits visit names).Always step allowed (fun _ _ => True) state := by
  induction names generalizing state with
  | nil => trivial
  | cons name names hypothesis =>
      apply Program.Always.bind
      apply (each name List.mem_cons_self state).mono
      intro value between _
      split
      · trivial
      · exact hypothesis (fun other member => each other (List.mem_cons_of_mem _ member)) between

theorem directoryVisits_ends {depth : Nat} {directory : Bytes}
    (shows : ∀ visit before response after, step visit before response after →
      Shown source root visit response)
    (reached : source.Directory root directory) (shallow : source.Shallow depth directory)
    (dstDir : Bytes) (state : State) :
    (directoryVisits depth directory dstDir).Always step (fun visit _ => visit ≠ .tooDeep)
      (fun _ _ => True) state := by
  induction depth generalizing directory dstDir state with
  | zero => exact shallow.elim
  | succ depth hypothesis =>
      apply Program.Always.call (by nofun)
      intro listed afterListing answered
      have told := shows _ _ _ _ answered reached
      cases listed with
      | none => trivial
      | some names =>
          apply entriesVisits_always
          intro name member between
          rw [entryVisits]
          split
          · trivial
          rename_i noDots
          rw [not_or] at noDots
          have hasEntry : source.HasEntry directory name :=
            ⟨(told names rfl name noDots.1 noDots.2).mp member, noDots⟩
          rcases shallow name hasEntry with ⟨fits, deeper⟩
          rw [joinPath_fits fits]
          apply Program.Always.call (by nofun)
          intro found afterLook looked
          have same := shows _ _ _ _ looked directory name reached hasEntry rfl
          cases found with
          | none => trivial
          | some statbuf =>
              dsimp only
              split
              · rename_i isDirectory
                rw [same statbuf rfl] at isDirectory
                apply Program.Always.call (by nofun)
                intro _ inside _
                exact hypothesis (.entry reached hasEntry isDirectory) (deeper isDirectory) _ inside
              · exact ⟨by nofun, fun _ _ _ => trivial⟩

end Parts

/-! ## System calls that may fail -/

section Results

variable {State : Type} {step : (call : SysCall) → State → SysResponse call → State → Prop}
  {source : Source} {srcDir : Bytes}

theorem shown_of_tells (tells : ∀ call before response after, step call before response after →
      source.Told srcDir call response) (visit : Visit) (before : State) (response : Answer visit)
    (after : State) (performed : Program.Performs (Visit.program false) step visit before response after) :
    Shown source srcDir visit response := by
  cases visit with
  | stat path =>
      cases performed with
      | call stepped rest =>
          cases rest with
          | done => exact tells _ _ _ _ stepped
  | readDirectory path =>
      cases performed with
      | call stepped rest =>
          cases rest with
          | done => exact tells _ _ _ _ stepped
  | descend outer inner => trivial
  | syncFile directory name path target =>
      cases performed with
      | call stepped rest => exact ((plain_syncFile path target false).anywhere _).result rest
  | tooDeep => trivial

theorem visit_ends (visit : Visit) (before : State) (notTooDeep : visit ≠ .tooDeep) :
    (visit.program false).Always step (fun call _ => call ≠ .tooDeep) (fun _ _ => True) before := by
  cases visit with
  | stat path => exact ⟨by nofun, fun _ _ _ => trivial⟩
  | readDirectory path => exact ⟨by nofun, fun _ _ _ => trivial⟩
  | descend outer inner => exact ⟨by nofun, fun _ _ _ => trivial⟩
  | syncFile directory name path target =>
      apply Program.Always.call (by nofun)
      intro _ between _
      apply (((plain_syncFile path target false).anywhere between).mono fun _ _ _ => trivial).mono_allowed
      rintro call _ plain rfl
      exact plain
  | tooDeep => exact absurd rfl notTooDeep

/-- What a call of `sync_file` that returns 0 has done. -/
theorem syncFile_synchronises {srcPath dstPath : Bytes} {before after : State}
    (run : (SimpleRsync.syncFile srcPath dstPath false).Runs step before 0 after) :
    (∃ between, (destinationIsIdentical srcPath dstPath).Runs step between true after) ∨
      ∃ between, (SimpleRsync.copyFile srcPath dstPath).Runs step between 0 after := by
  rw [SimpleRsync.syncFile] at run
  cases run with
  | @call _ _ _ between _ found _ looked rest =>
      cases found with
      | none => cases rest
      | some found =>
          rcases (@Program.runs_bind_iff _ _ _ _ _ step (destinationIsIdentical srcPath dstPath)
            _ _ _ _).mp rest with ⟨identical, last, compared, continued⟩
          cases identical with
          | true =>
              cases continued
              exact Or.inl ⟨_, compared⟩
          | false => exact Or.inr ⟨_, continued⟩

end Results

/-! ### A directory with one file -/

/-- The file `a` in the directory `s`. -/
def smallSource : Source where
  isDirectory := fun path => path = [115]
  names := fun path => if path = [115] then [[97]] else []

theorem smallSource_regular : smallSource.RegularFile [115] (entryPath [115] [97]) :=
  .entry .root ⟨List.mem_cons_self, by decide, by decide⟩ rfl

/-- Every call may fail that looks at the file. -/
abbrev SmallSourceCalls (call : SysCall) (_ : Unit) (response : SysResponse call) (_ : Unit) : Prop :=
  smallSource.Told [115] call response

theorem smallSource_listed : Program.Performs (Visit.program false) SmallSourceCalls (.readDirectory [115]) ()
    (some [[97]] : Option (List Bytes)) () := by
  apply Program.Runs.call _ (.done _ _)
  intro _ names isNames name _ _
  cases isNames
  exact Iff.rfl

theorem smallSource_statFails : SmallSourceCalls (.stat [115, 47, 97]) () (none : Option Stat) () :=
  fun _ _ _ _ _ _ impossible => nomatch impossible

theorem smallSource_found : Program.Performs (Visit.program false) SmallSourceCalls (.stat [115, 47, 97]) ()
    (some ⟨false, 0, 0, 0⟩ : Option Stat) () := by
  apply Program.Runs.call _ (.done _ _)
  intro _ _ _ _ _ statbuf isStat
  cases isStat
  rfl

end Apue.Sync.SimpleRsync
