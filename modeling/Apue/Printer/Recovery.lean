import Apue.Printer.Receiving

/-! # The restart of the print daemon

`build_qonstart` of `printer/printd.c` walks through the directory of the requests when the
daemon starts, and queues the jobs that it finds there. A request that it cannot read in one
call is removed together with its data file. The request files that it has read stay open.
Lines for the log are left out.
-/

namespace Apue.Printer.Recovery

open Apue.Foundation Ascii
open JobNumbers (FILENMSZ)
open Submission (DATADIR PRINTREQ_SIZE PrintReq REQDIR SPOOLDIR)

inductive Call
  | opendir
  | readdir
  | openFile (fname : Bytes)
  | read (nbytes : Nat)
  | close
  | unlink (fname : Bytes)
  | addJob (req : PrintReq) (jobid : Int)
  | closedir
  /-- The name does not fit into its buffer. -/
  | overrun
  /-- The loop does not end within its bound. -/
  | outOfRounds

/-- Nothing is asked about an error but whether there is one. -/
def Response : Call → Type
  | .opendir => Bool
  | .readdir => Option CString
  | .openFile _ => Bool
  | .read _ => Option Bytes
  | .close => Unit
  | .unlink _ => Unit
  | .addJob _ _ => Unit
  | .closedir => Unit
  | .overrun => Empty
  | .outOfRounds => Empty

abbrev Thread : Type → Type := Program Call Response

def call (command : Call) : Thread (Response command) := .perform command

def overrun {Result : Type} : Thread Result := .call Call.overrun fun never : Empty => nomatch never

def outOfRounds {Result : Type} : Thread Result := .call Call.outOfRounds fun never : Empty => nomatch never

def addJob (req : PrintReq) (jobid : Int) : Thread Unit := .perform (Call.addJob req jobid)

/-- `sprintf(fname, "%s/%s/%s", SPOOLDIR, directory, entp->d_name)` -/
def entryName (directory : Bytes) (d_name : CString) : Bytes :=
  SPOOLDIR ++ text "/" ++ directory ++ text "/" ++ d_name.1

def IsDot (d_name : CString) : Prop := d_name.1 = text "." ∨ d_name.1 = text ".."

instance (d_name : CString) : Decidable (IsDot d_name) :=
  inferInstanceAs (Decidable (d_name.1 = text "." ∨ d_name.1 = text ".."))

/-- Both files of a job whose request cannot be read are removed. -/
def discard (d_name : CString) : Thread Unit := do
  call .close
  call (.unlink (entryName REQDIR d_name))
  call (.unlink (entryName DATADIR d_name))

/-- What comes behind `read`. `atol` gives a `long`, of which `jobid` keeps the lower half. -/
def queueRequest (d_name : CString) : Option Bytes → Thread Unit
  | none => discard d_name
  | some bytes =>
      if whole : bytes.length = PRINTREQ_SIZE then
        addJob (PrintReq.ofBytes bytes whole) (atoi d_name.1)
      else discard d_name

/-- One round of the loop. -/
def queueEntry (d_name : CString) : Thread Unit := do
  if IsDot d_name then return
  else if FILENMSZ ≤ (entryName REQDIR d_name).length then overrun
  else
    match ← call (.openFile (entryName REQDIR d_name)) with
    | false => return
    | true => do
        let nr ← call (.read PRINTREQ_SIZE)
        queueRequest d_name nr

/-- The loop, with a bound on its rounds. -/
def queueEntries : Nat → Thread Unit
  | 0 => outOfRounds
  | rounds + 1 => do
      match ← call .readdir with
      | none => return
      | some d_name =>
          queueEntry d_name
          queueEntries rounds

def buildQonstart (rounds : Nat) : Thread Unit := do
  if !(← call .opendir) then return
  queueEntries rounds
  call .closedir

/-! ## The outcomes of the calls -/

/-- The spool directory, the names that `readdir` has not returned yet, what is left to read of
the file that was opened last, the number of open files, and the queue. -/
structure Daemon where
  files : Bytes → Option Bytes
  entries : List CString
  unread : Bytes
  opened : Nat
  jobs : JobQueue.Memory PrintReq
  added : Nat

/-- A call fails, or reads less than there is, only where there are `faults`. -/
inductive Outcomes (faults : Prop) : (call : Call) → Daemon → Response call → Daemon → Prop
  | opendir (before : Daemon) : Outcomes faults .opendir before true before
  | opendirFails (faulty : faults) (before : Daemon) : Outcomes faults .opendir before false before
  | readdir {d_name : CString} {rest : List CString} {before : Daemon}
      (isNext : before.entries = d_name :: rest) :
      Outcomes faults .readdir before (some d_name : Option CString) { before with entries := rest }
  | readdirEnd {before : Daemon} (isEnd : before.entries = []) :
      Outcomes faults .readdir before (none : Option CString) before
  | readdirFails (faulty : faults) (before : Daemon) :
      Outcomes faults .readdir before (none : Option CString) before
  | openFile {fname content : Bytes} {before : Daemon} (isFile : before.files fname = some content) :
      Outcomes faults (.openFile fname) before true
        { before with unread := content, opened := before.opened + 1 }
  | openMissing {fname : Bytes} {before : Daemon} (noFile : before.files fname = none) :
      Outcomes faults (.openFile fname) before false before
  | openFails {fname : Bytes} (faulty : faults) (before : Daemon) :
      Outcomes faults (.openFile fname) before false before
  | read (nbytes : Nat) (before : Daemon) :
      Outcomes faults (.read nbytes) before (some (before.unread.take nbytes) : Option Bytes)
        { before with unread := before.unread.drop nbytes }
  | readLess {nbytes nr : Nat} (faulty : faults) (within : nr ≤ nbytes) (before : Daemon) :
      Outcomes faults (.read nbytes) before (some (before.unread.take nr) : Option Bytes)
        { before with unread := before.unread.drop nr }
  | readFails {nbytes : Nat} (faulty : faults) (before : Daemon) :
      Outcomes faults (.read nbytes) before (none : Option Bytes) before
  | close (before : Daemon) : Outcomes faults .close before () { before with opened := before.opened - 1 }
  | unlink (fname : Bytes) (before : Daemon) : Outcomes faults (.unlink fname) before ()
      { before with files := Function.update before.files fname none }
  | unlinkFails {fname : Bytes} (faulty : faults) (before : Daemon) :
      Outcomes faults (.unlink fname) before () before
  | addJob {req : PrintReq} {jobid : Int} {before : Daemon} {malloc : Address}
      {jobs : JobQueue.Memory PrintReq} (isFree : malloc ∉ before.jobs.heap)
      (isAdded : JobQueue.addJob before.jobs malloc req jobid before.added = some jobs) :
      Outcomes faults (.addJob req jobid) before () { before with jobs := jobs, added := before.added + 1 }
  | closedir (before : Daemon) : Outcomes faults .closedir before () before

/-- The list of the jobs is in order, and the loop comes to its end. A name runs over its buffer
only where the directory has a `long` name. -/
def Permitted (long : Prop) : Call → Daemon → Prop
  | .addJob req jobid, daemon => ∀ malloc, malloc ∉ daemon.jobs.heap →
      (JobQueue.addJob daemon.jobs malloc req jobid daemon.added).isSome = true
  | .overrun, _ => long
  | .outOfRounds, _ => False
  | _, _ => True

/-! ## What becomes of an entry -/

inductive Fate
  | passed
  | queued (req : PrintReq)
  | discarded

/-- What becomes of an entry where no call fails. -/
def fateOf (files : Bytes → Option Bytes) (d_name : CString) : Fate :=
  if IsDot d_name then .passed
  else match files (entryName REQDIR d_name) with
    | none => .passed
    | some content =>
        if whole : (content.take PRINTREQ_SIZE).length = PRINTREQ_SIZE then
          .queued (PrintReq.ofBytes (content.take PRINTREQ_SIZE) whole)
        else .discarded

/-- The job that is queued for an entry. -/
def jobOf : CString × Fate → Option (Int × PrintReq)
  | (d_name, .queued req) => some (atoi d_name.1, req)
  | _ => none

/-- A fault can make the daemon pass an entry over, or throw it away. -/
def Meets (faults : Prop) (files : Bytes → Option Bytes) (entry : CString × Fate) : Prop :=
  entry.2 = fateOf files entry.1 ∨ faults ∧ (entry.2 = .passed ∨ entry.2 = .discarded)

def FileOf (d_name : CString) (fname : Bytes) : Prop :=
  fname = entryName REQDIR d_name ∨ fname = entryName DATADIR d_name

/-- Where the walk has come to: what has become of the entries that it has seen. -/
structure Walked (faults : Prop) (before : Daemon) (jobs : List (Int × PrintReq))
    (seen : List (CString × Fate)) (after : Daemon) : Prop where
  entries : before.entries = seen.map Prod.fst ++ after.entries
  fates : ∀ entry ∈ seen, Meets faults before.files entry
  queued : after.jobs.Holds (jobs ++ seen.filterMap jobOf)
  kept : ∀ fname, (∀ entry ∈ seen, entry.2 = .discarded → ¬ FileOf entry.1 fname) →
    after.files fname = before.files fname
  removed : ∀ entry ∈ seen, entry.2 = .discarded → ∀ fname, FileOf entry.1 fname →
    after.files fname = none ∨ faults ∧ after.files fname = before.files fname
  opened : after.opened = before.opened + (seen.filterMap jobOf).length

section Walked

variable {faults : Prop} {before daemon later : Daemon} {jobs : List (Int × PrintReq)}
  {seen : List (CString × Fate)} {d_name other : CString} {fate : Fate} {fname : Bytes}

theorem entryName_injective {directory : Bytes}
    (same : entryName directory d_name = entryName directory other) : d_name = other :=
  Subtype.ext (List.append_cancel_left same)

theorem entryName_ne (d_name other : CString) : entryName REQDIR d_name ≠ entryName DATADIR other := by
  intro same
  have differ := congrArg (fun name : Bytes => name.drop 19 |>.take 1) same
  exact absurd differ (by simp [entryName, SPOOLDIR, REQDIR, DATADIR, text])

/-- The files of different entries are different. -/
theorem FileOf.eq (isFile : FileOf d_name fname) (isOther : FileOf other fname) : d_name = other := by
  rcases isFile with rfl | rfl
  · rcases isOther with same | same
    · exact entryName_injective same
    · exact absurd same (entryName_ne _ _)
  · rcases isOther with same | same
    · exact absurd same.symm (entryName_ne _ _)
    · exact entryName_injective same

/-- One more entry. -/
theorem Walked.add (walked : Walked faults before jobs seen { daemon with entries := d_name :: daemon.entries })
    (meets : Meets faults before.files (d_name, fate)) (sameEntries : later.entries = daemon.entries)
    (queued : later.jobs.Holds (jobs ++ seen.filterMap jobOf ++ (jobOf (d_name, fate)).toList))
    (files : ∀ fname, later.files fname = daemon.files fname ∨
      fate = .discarded ∧ FileOf d_name fname ∧ later.files fname = none)
    (removed : fate = .discarded → ∀ fname, FileOf d_name fname →
      later.files fname = none ∨ faults ∧ later.files fname = daemon.files fname)
    (opened : later.opened = daemon.opened + (jobOf (d_name, fate)).toList.length) :
    Walked faults before jobs (seen ++ [(d_name, fate)]) later where
  entries := by
    rw [walked.entries, sameEntries, List.map_append, List.append_assoc]
    rfl
  fates := by
    intro entry member
    rcases List.mem_append.mp member with old | isNew
    · exact walked.fates entry old
    · rw [List.mem_singleton.mp isNew]
      exact meets
  queued := by
    rw [List.filterMap_append, ← List.append_assoc]
    cases isJob : jobOf (d_name, fate) with
    | none =>
        rw [isJob] at queued
        rw [List.filterMap_cons_none isJob]
        exact queued
    | some job =>
        rw [isJob] at queued
        rw [List.filterMap_cons_some isJob]
        exact queued
  kept := by
    intro fname untouched
    rw [← walked.kept fname (fun entry member => untouched entry (List.mem_append_left _ member))]
    rcases files fname with same | ⟨isDiscarded, isFile, _⟩
    · exact same
    · exact absurd isFile (untouched (d_name, fate) (List.mem_append_right _ (List.mem_singleton_self _))
        isDiscarded)
  removed := by
    intro entry member isDiscarded fname isFile
    rcases List.mem_append.mp member with old | isNew
    · rcases walked.removed entry old isDiscarded fname isFile with gone | ⟨faulty, same⟩
      · rcases files fname with unchanged | ⟨_, _, goneNow⟩
        · exact Or.inl (unchanged.trans gone)
        · exact Or.inl goneNow
      · rcases files fname with unchanged | ⟨_, _, goneNow⟩
        · exact Or.inr ⟨faulty, unchanged.trans same⟩
        · exact Or.inl goneNow
    · cases List.mem_singleton.mp isNew
      rcases removed isDiscarded fname isFile with gone | ⟨faulty, same⟩
      · exact Or.inl gone
      · by_cases anyOld : ∀ entry ∈ seen, entry.2 = .discarded → ¬ FileOf entry.1 fname
        · exact Or.inr ⟨faulty, same.trans (walked.kept fname anyOld)⟩
        · simp only [not_forall, not_not] at anyOld
          rcases anyOld with ⟨entry, old, isOld, isOldFile⟩
          rcases walked.removed entry old isOld fname isOldFile with gone | ⟨_, unchanged⟩
          · exact Or.inl (same.trans gone)
          · exact Or.inr ⟨faulty, same.trans unchanged⟩
  opened := by
    have before := walked.opened
    rw [opened, before, List.filterMap_append, List.length_append, Nat.add_assoc]
    cases isJob : jobOf (d_name, fate) with
    | none => rw [List.filterMap_cons_none isJob]; rfl
    | some job => rw [List.filterMap_cons_some isJob]; rfl

/-- The files of an entry that has not been seen yet. -/
theorem Walked.untouched (nodup : before.entries.Nodup)
    (walked : Walked faults before jobs seen { daemon with entries := d_name :: daemon.entries })
    (isFile : FileOf d_name fname) : daemon.files fname = before.files fname := by
  apply walked.kept fname
  intro entry member _ isOld
  have same := isFile.eq isOld
  rw [walked.entries] at nodup
  have disjoint := List.disjoint_of_nodup_append nodup
  exact disjoint (List.mem_map_of_mem member) (same ▸ List.mem_cons_self)

end Walked

/-! ## One entry -/

section Entry

variable {faults long : Prop} {before daemon : Daemon} {jobs : List (Int × PrintReq)}
  {seen : List (CString × Fate)} {d_name : CString}

theorem unlink_files {fname : Bytes} {after : Daemon} {response : Unit}
    (answered : Outcomes faults (.unlink fname) daemon response after) :
    ∃ files, after = { daemon with files := files } ∧
      (∀ other, other ≠ fname → files other = daemon.files other) ∧
      (files fname = none ∨ faults ∧ files fname = daemon.files fname) := by
  cases answered with
  | unlink =>
      exact ⟨_, rfl, fun other different => Function.update_of_ne different _ _,
        Or.inl (Function.update_self _ _ _)⟩
  | unlinkFails faulty => exact ⟨_, rfl, fun _ _ => rfl, Or.inr ⟨faulty, rfl⟩⟩

theorem discard_files (d_name : CString) (daemon : Daemon) :
    (discard d_name).Always (Outcomes faults) (Permitted long)
      (fun _ after => ∃ files, after = { daemon with opened := daemon.opened - 1, files := files } ∧
        (∀ fname, ¬ FileOf d_name fname → files fname = daemon.files fname) ∧
        ∀ fname, FileOf d_name fname → files fname = none ∨ faults ∧ files fname = daemon.files fname)
      daemon := by
  rw [discard]
  apply Program.Always.call (by trivial)
  intro _ closed answered
  cases answered
  apply Program.Always.call (by trivial)
  intro _ between answered
  rcases unlink_files answered with ⟨fewer, rfl, others, request⟩
  apply Program.Always.perform (by trivial)
  intro _ after answered
  rcases unlink_files answered with ⟨least, rfl, othersLeft, data⟩
  refine ⟨least, rfl, fun fname different => ?_, fun fname isFile => ?_⟩
  · rw [othersLeft fname fun same => different (Or.inr same)]
    exact others fname fun same => different (Or.inl same)
  · rcases isFile with rfl | rfl
    · rw [othersLeft _ (entryName_ne d_name d_name)]
      exact request
    · dsimp only at data
      rw [others _ (entryName_ne d_name d_name).symm] at data
      exact data

theorem Walked.passed (walked : Walked faults before jobs seen { daemon with entries := d_name :: daemon.entries })
    (meets : Meets faults before.files (d_name, .passed)) :
    Walked faults before jobs (seen ++ [(d_name, .passed)]) daemon := by
  apply walked.add meets rfl
  · have noJob : jobOf (d_name, .passed) = none := rfl
    rw [noJob, Option.toList_none, List.append_nil]
    exact walked.queued
  · exact fun _ => Or.inl rfl
  · intro isDiscarded
    cases isDiscarded
  · rfl

theorem Walked.discarded (unread : Bytes)
    (walked : Walked faults before jobs seen { daemon with entries := d_name :: daemon.entries })
    (meets : Meets faults before.files (d_name, .discarded)) :
    (discard d_name).Always (Outcomes faults) (Permitted long)
      (fun _ after => ∃ fate, Walked faults before jobs (seen ++ [(d_name, fate)]) after ∧
        after.entries = daemon.entries) { daemon with unread := unread, opened := daemon.opened + 1 } := by
  apply (discard_files d_name _).mono
  rintro _ after ⟨files, rfl, others, own⟩
  refine ⟨.discarded, walked.add meets rfl ?_ ?_ (fun _ => own) rfl, rfl⟩
  · have noJob : jobOf (d_name, .discarded) = none := rfl
    rw [noJob, Option.toList_none, List.append_nil]
    exact walked.queued
  · intro fname
    by_cases isFile : FileOf d_name fname
    · rcases own fname isFile with gone | ⟨_, same⟩
      · exact Or.inr ⟨rfl, isFile, gone⟩
      · exact Or.inl same
    · exact Or.inl (others fname isFile)

theorem Walked.queues (unread : Bytes) {req : PrintReq}
    (walked : Walked faults before jobs seen { daemon with entries := d_name :: daemon.entries })
    (meets : Meets faults before.files (d_name, .queued req)) :
    (addJob req (atoi d_name.1)).Always (Outcomes faults) (Permitted long)
      (fun _ after => ∃ fate, Walked faults before jobs (seen ++ [(d_name, fate)]) after ∧
        after.entries = daemon.entries) { daemon with unread := unread, opened := daemon.opened + 1 } := by
  have holds : daemon.jobs.Holds (jobs ++ seen.filterMap jobOf) := walked.queued
  apply Program.Always.perform
  · intro malloc isFree
    rcases JobQueue.addJob_holds holds isFree req (atoi d_name.1) daemon.added with ⟨longer, isAdded, _⟩
    exact Option.isSome_iff_exists.mpr ⟨longer, isAdded⟩
  intro _ after answered
  cases answered with
  | addJob isFree isAdded =>
      rcases JobQueue.addJob_holds holds isFree req (atoi d_name.1) daemon.added with
        ⟨longer, sameAdded, holdsLonger⟩
      rw [isAdded, Option.some.injEq] at sameAdded
      subst sameAdded
      refine ⟨.queued req, walked.add meets rfl holdsLonger (fun _ => Or.inl rfl) ?_ rfl, rfl⟩
      intro isDiscarded
      cases isDiscarded

theorem queueRequest_whole {bytes : Bytes} (whole : bytes.length = PRINTREQ_SIZE) :
    queueRequest d_name (some bytes) = addJob (PrintReq.ofBytes bytes whole) (atoi d_name.1) :=
  dif_pos whole

theorem queueRequest_short {bytes : Bytes} (short : bytes.length ≠ PRINTREQ_SIZE) :
    queueRequest d_name (some bytes) = discard d_name := dif_neg short

/-- One round of the loop takes the walk one entry further. -/
theorem queueEntry_walks (nodup : before.entries.Nodup)
    (isLong : FILENMSZ ≤ (entryName REQDIR d_name).length → long)
    (walked : Walked faults before jobs seen { daemon with entries := d_name :: daemon.entries }) :
    (queueEntry d_name).Always (Outcomes faults) (Permitted long)
      (fun _ after => ∃ fate, Walked faults before jobs (seen ++ [(d_name, fate)]) after ∧
        after.entries = daemon.entries) daemon := by
  rw [queueEntry]
  split
  · rename_i isDot
    exact ⟨.passed, walked.passed (Or.inl (if_pos isDot).symm), rfl⟩
  rename_i notDot
  split
  · rename_i tooLong
    exact ⟨isLong tooLong, fun never => Empty.elim never⟩
  have untouched : daemon.files (entryName REQDIR d_name) = before.files (entryName REQDIR d_name) :=
    walked.untouched nodup (Or.inl rfl)
  apply Program.Always.call (by trivial)
  intro isOpen opened answered
  cases answered with
  | openMissing noFile =>
      rw [untouched] at noFile
      have meets : Meets faults before.files (d_name, .passed) := by
        left
        rw [fateOf, if_neg notDot, noFile]
      exact ⟨.passed, walked.passed meets, rfl⟩
  | openFails faulty => exact ⟨.passed, walked.passed (Or.inr ⟨faulty, Or.inl rfl⟩), rfl⟩
  | @openFile _ content _ isFile =>
      rw [untouched] at isFile
      have isFate : fateOf before.files d_name =
          if whole : (content.take PRINTREQ_SIZE).length = PRINTREQ_SIZE then
            .queued (PrintReq.ofBytes (content.take PRINTREQ_SIZE) whole)
          else .discarded := by
        rw [fateOf, if_neg notDot, isFile]
      apply Program.Always.call (by trivial)
      intro bytes got answered
      cases answered with
      | readFails faulty => exact walked.discarded _ (Or.inr ⟨faulty, Or.inr rfl⟩)
      | read =>
          dsimp only
          by_cases whole : (content.take PRINTREQ_SIZE).length = PRINTREQ_SIZE
          · rw [queueRequest_whole whole]
            exact walked.queues _ (Or.inl (isFate.trans (dif_pos whole)).symm)
          · rw [queueRequest_short whole]
            exact walked.discarded _ (Or.inl (isFate.trans (dif_neg whole)).symm)
      | @readLess _ nr faulty within =>
          dsimp only
          by_cases whole : (content.take nr).length = PRINTREQ_SIZE
          · rw [queueRequest_whole whole]
            have everything : nr = PRINTREQ_SIZE := by
              rw [List.length_take] at whole
              omega
            subst everything
            exact walked.queues _ (Or.inl (isFate.trans (dif_pos whole)).symm)
          · rw [queueRequest_short whole]
            exact walked.discarded _ (Or.inr ⟨faulty, Or.inr rfl⟩)

end Entry

/-! ## The whole directory -/

section Directory

variable {faults long : Prop} {before : Daemon} {jobs : List (Int × PrintReq)}

theorem queueEntries_walk (nodup : before.entries.Nodup)
    (areLong : ∀ d_name ∈ before.entries, FILENMSZ ≤ (entryName REQDIR d_name).length → long) :
    ∀ (rounds : Nat) (seen : List (CString × Fate)) (daemon : Daemon), daemon.entries.length < rounds →
      Walked faults before jobs seen daemon →
      (queueEntries rounds).Always (Outcomes faults) (Permitted long)
        (fun _ after => ∃ seen, Walked faults before jobs seen after ∧ (after.entries = [] ∨ faults)) daemon
  | 0, _, _, enough, _ => absurd enough (Nat.not_lt_zero _)
  | rounds + 1, seen, daemon, enough, walked => by
      rw [queueEntries]
      apply Program.Always.call (by trivial)
      intro entry listed answered
      cases answered with
      | readdirEnd isEnd => exact ⟨seen, walked, Or.inl isEnd⟩
      | readdirFails faulty => exact ⟨seen, walked, Or.inr faulty⟩
      | @readdir d_name rest _ isNext =>
          have here : Walked faults before jobs seen { daemon with entries := d_name :: rest } := by
            rw [← isNext]
            exact walked
          have listed : d_name ∈ before.entries := by
            rw [walked.entries, isNext]
            exact List.mem_append_right _ List.mem_cons_self
          apply Program.Always.bind
          apply (queueEntry_walks nodup (areLong d_name listed) here).mono
          rintro _ after ⟨fate, further, sameEntries⟩
          apply queueEntries_walk nodup areLong rounds _ after _ further
          rw [isNext, List.length_cons] at enough
          rw [sameEntries]
          exact Nat.lt_of_succ_lt_succ enough

/-- Whatever fails, the daemon comes to the end of a walk through a front of the directory, and
queues the jobs of it in order. Where nothing fails it has seen the whole directory. -/
theorem buildQonstart_walks {rounds : Nat} (nodup : before.entries.Nodup) (holds : before.jobs.Holds jobs)
    (enough : before.entries.length < rounds) :
    (buildQonstart rounds).Always (Outcomes faults)
      (Permitted (∃ d_name ∈ before.entries, FILENMSZ ≤ (entryName REQDIR d_name).length))
      (fun _ after => ∃ seen, Walked faults before jobs seen after ∧ (after.entries = [] ∨ faults))
      before := by
  have start : Walked faults before jobs [] before := by
    refine ⟨rfl, fun entry member => ?_, ?_, fun _ _ => rfl, fun entry member => ?_, rfl⟩
    · cases member
    · rw [List.filterMap_nil, List.append_nil]
      exact holds
    · cases member
  rw [buildQonstart]
  apply Program.Always.call (by trivial)
  intro isOpen opened answered
  cases answered with
  | opendirFails faulty => exact ⟨[], start, Or.inr faulty⟩
  | opendir =>
      apply Program.Always.bind
      apply (queueEntries_walk nodup (fun d_name listed tooLong => ⟨d_name, listed, tooLong⟩) rounds []
        before enough start).mono
      intro _ walked ended
      apply Program.Always.perform (by trivial)
      intro _ after answered
      cases answered
      exact ended

/-- A directory with one name, which is too long for the buffer. -/
def longName : Daemon where
  files := fun _ => none
  entries := [⟨List.replicate 40 97, ne_of_all (by decide)⟩]
  unread := []
  opened := 0
  jobs := ⟨∅, none, none⟩
  added := 0

theorem buildQonstart_walks_longName : (buildQonstart 2).Always (Outcomes True)
    (Permitted (∃ d_name ∈ longName.entries, FILENMSZ ≤ (entryName REQDIR d_name).length))
    (fun _ after => ∃ seen, Walked True longName [] seen after ∧ (after.entries = [] ∨ True)) longName :=
  buildQonstart_walks (by decide) ⟨[], .empty _ _, .nil⟩ (by decide)

/-! ### Where nothing fails -/

variable {after : Daemon} {seen : List (CString × Fate)} {files : Bytes → Option Bytes}
  {entries : List CString} {job : Int × PrintReq}

def entryFates (files : Bytes → Option Bytes) (entries : List CString) : List (CString × Fate) :=
  entries.map fun d_name => (d_name, fateOf files d_name)

theorem Walked.seen_eq (walked : Walked False before jobs seen after) (isEnd : after.entries = []) :
    seen = entryFates before.files before.entries := by
  have names : before.entries = seen.map Prod.fst := by
    rw [walked.entries, isEnd, List.append_nil]
  have sameFates : ∀ entry ∈ seen, (entry.1, fateOf before.files entry.1) = entry := by
    intro entry member
    rcases walked.fates entry member with isFate | ⟨faulty, _⟩
    · exact Prod.ext rfl isFate.symm
    · exact faulty.elim
  calc seen = seen.map fun entry => (entry.1, fateOf before.files entry.1) :=
        ((List.map_congr_left sameFates).trans (List.map_id' seen)).symm
    _ = entryFates before.files before.entries := by
        rw [entryFates, names, List.map_map]
        rfl

theorem jobOf_eq_some {d_name : CString} {fate : Fate} :
    jobOf (d_name, fate) = some job ↔ fate = .queued job.2 ∧ atoi d_name.1 = job.1 := by
  rcases job with ⟨jobid, req⟩
  cases fate with
  | passed => exact ⟨fun isJob => absurd isJob (by rintro ⟨⟩), fun both => absurd both.1 (by rintro ⟨⟩)⟩
  | discarded => exact ⟨fun isJob => absurd isJob (by rintro ⟨⟩), fun both => absurd both.1 (by rintro ⟨⟩)⟩
  | queued other => rw [jobOf, Option.some.injEq, Prod.mk.injEq, Fate.queued.injEq, and_comm]

theorem mem_jobs : job ∈ (entryFates files entries).filterMap jobOf ↔
    ∃ d_name ∈ entries, fateOf files d_name = .queued job.2 ∧ atoi d_name.1 = job.1 := by
  rw [entryFates, List.filterMap_map, List.mem_filterMap]
  constructor
  · rintro ⟨d_name, listed, isJob⟩
    exact ⟨d_name, listed, jobOf_eq_some.mp isJob⟩
  · rintro ⟨d_name, listed, isJob⟩
    exact ⟨d_name, listed, jobOf_eq_some.mpr isJob⟩

end Directory

end Apue.Printer.Recovery
