import Apue.Foundation.Surroundings
import Apue.TellWait.Pipes

/-! # Telling and waiting with signals

`lib/tellwait.c` lets a parent and its child wait for one another by signals. A
signal that is pending is delivered between any two steps of a process that does
not block it.
-/

namespace Apue.TellWait

open Apue.Foundation

inductive Signal
  | SIGUSR1
  | SIGUSR2
  deriving DecidableEq

/-- The signals that are blocked. -/
abbrev Mask : Type := Signal → Bool

def zeromask : Mask := fun _ => false

def newmask : Mask := fun _ => true

/-- The variables of a process, and what the kernel keeps for it. While it sleeps in
`sigsuspend`, `suspended` is the mask to go back to, and `caught` tells whether a
handler has returned. -/
structure Process where
  sigflag : Bool
  oldmask : Mask
  mask : Mask
  pending : Signal → Bool
  suspended : Option Mask
  caught : Bool

/-- The processes, and below them a history: how often each has called TELL, and how
often a call of WAIT has come to its last step. -/
structure System where
  process : Party → Process
  told : Party → Nat
  waited : Party → Nat

def System.change (system : System) (party : Party) (process : Process) : System :=
  { system with process := Function.update system.process party process }

inductive Call
  | kill (signal : Signal)
  | readFlag
  | sigsuspend (mask : Mask)
  | awake
  | clearFlag
  | restoreMask
  /-- A loop does not end within its bound. -/
  | outOfRounds

def Response : Call → Type
  | .readFlag => Bool
  | .outOfRounds => Empty
  | _ => Unit

/-- What a call does; `none` while it has to wait. `kill` goes to the other process,
and `sigsuspend` sleeps until `awake` returns. -/
def perform (party : Party) : (call : Call) → System → Option (Response call × System)
  | .kill signal, system =>
      let receiver := system.process party.other
      let system := system.change party.other
        { receiver with pending := Function.update receiver.pending signal true }
      some ((), { system with told := Function.update system.told party (system.told party + 1) })
  | .readFlag, system => some ((system.process party).sigflag, system)
  | .sigsuspend mask, system =>
      let process := system.process party
      some ((), system.change party
        { process with mask := mask, suspended := some process.mask, caught := false })
  | .awake, system =>
      let process := system.process party
      if process.caught then
        some ((), system.change party
          { process with mask := process.suspended.getD process.mask, suspended := none })
      else none
  | .clearFlag, system =>
      some ((), system.change party { system.process party with sigflag := false })
  | .restoreMask, system =>
      let process := system.process party
      let system := system.change party { process with mask := process.oldmask }
      some ((), { system with
        waited := Function.update system.waited party (system.waited party + 1) })
  | .outOfRounds, _ => none

/-- The handler runs for a signal that is pending and not blocked. -/
def deliver (event : Party × Signal) (system : System) : Option System :=
  let process := system.process event.1
  if process.pending event.2 ∧ process.mask event.2 = false then
    some (system.change event.1 { process with
      sigflag := true
      pending := Function.update process.pending event.2 false
      caught := true })
  else none

/-! ## The functions -/

abbrev Code : Type := Program Call Response Unit

/-- The call installs the handler for both signals, too. -/
def TELL_WAIT (process : Process) : Process :=
  { process with oldmask := process.mask, mask := fun signal => process.mask signal || newmask signal }

def TELL_PARENT : Code := .perform (Call.kill .SIGUSR2)

def TELL_CHILD : Code := .perform (Call.kill .SIGUSR1)

/-- The loop of `WAIT_PARENT` and `WAIT_CHILD`, with a bound on its rounds. -/
def waitLoop : Nat → Code
  | 0 => .call Call.outOfRounds fun never : Empty => nomatch never
  | rounds + 1 => Program.perform Call.readFlag >>= fun sigflag : Bool =>
      if sigflag then pure ()
      else do
        Program.perform (Call.sigsuspend zeromask)
        Program.perform Call.awake
        waitLoop rounds

def waitForSignal : Code := do
  waitLoop 2
  Program.perform Call.clearFlag
  Program.perform Call.restoreMask

def WAIT_PARENT : Code := waitForSignal

def WAIT_CHILD : Code := waitForSignal

/-! ## Rounds -/

def tell : Party → Code
  | .parent => TELL_CHILD
  | .child => TELL_PARENT

def wait : Party → Code
  | .parent => WAIT_CHILD
  | .child => WAIT_PARENT

/-- The parent before `TELL_WAIT`. -/
def fresh (mask : Mask) : Process where
  sigflag := false
  oldmask := zeromask
  mask := mask
  pending := fun _ => false
  suspended := none
  caught := false

/-- The child is a copy of the parent in which no signal is pending. -/
def fork (process : Process) : Process := { process with pending := fun _ => false }

/-- After `TELL_WAIT` and `fork`, with the mask that the parent had before. -/
def start (leader : Party) (count : Nat) (mask : Mask) : Pool Party Call Response System Unit where
  programs := fun party => rounds (tell party) (wait party) (party = leader) count
  state :=
    { process := fun
        | .parent => TELL_WAIT (fresh mask)
        | .child => fork (TELL_WAIT (fresh mask))
      told := fun _ => 0
      waited := fun _ => 0 }

/-! ## Where the processes stand -/

/-- Where a process is in a round; `tested` is between a test of the flag that has
found 0 and `sigsuspend`. -/
inductive Point
  | telling
  | testing
  | tested
  | sleeping
  | woken
  | clearing
  | restoring
  deriving DecidableEq

/-- Where a process is, and how many rounds are behind it. -/
structure Stage where
  point : Point
  round : Nat

/-- Whether the party has told in the round that it is in. -/
def Point.told (leads : Bool) : Point → Nat
  | .telling => 0
  | _ => leads.toNat

/-- Whether the party has waited in the round that it is in. -/
def Point.waited (leads : Bool) : Point → Nat
  | .telling => (!leads).toNat
  | _ => 0

/-- Whether the party has used up the signal of the round that it is in. -/
def Point.consumed (leads : Bool) : Point → Nat
  | .restoring => 1
  | point => point.waited leads

def Stage.told (leads : Bool) (stage : Stage) : Nat := stage.round + stage.point.told leads

def Stage.waited (leads : Bool) (stage : Stage) : Nat := stage.round + stage.point.waited leads

def Stage.consumed (leads : Bool) (stage : Stage) : Nat := stage.round + stage.point.consumed leads

/-- The signal that a party is told with. -/
def Party.signal : Party → Signal
  | .parent => .SIGUSR2
  | .child => .SIGUSR1

/-- What a process is like where it stands. `prompt` says that no signal comes between
the test of the flag and `sigsuspend`. -/
def Placed (prompt : Prop) (process : Process) : Point → Prop
  | .tested => process.suspended = none ∧ (prompt → process.sigflag = false)
  | .sleeping => process.suspended.isSome = true ∧ process.mask = zeromask ∧
      (process.caught = true → process.sigflag = true) ∧
      (prompt → process.sigflag = true → process.caught = true)
  | .woken | .clearing => process.suspended = none ∧ process.sigflag = true
  | _ => process.suspended = none

theorem Placed.awake {prompt : Prop} {process : Process} {point : Point}
    (placed : Placed prompt process point) (different : point ≠ .sleeping) :
    process.suspended = none := by
  cases point with
  | telling | testing | restoring => exact placed
  | tested | woken | clearing => exact placed.1
  | sleeping => exact absurd rfl different

/-- A party was told as often as it has used up a signal, and once more if its flag is
set or the signal is pending. -/
structure Valid (prompt : Prop) (leader : Party) (stages : Party → Stage) (system : System) :
    Prop where
  told : ∀ party, system.told party = (stages party).told (party = leader)
  waited : ∀ party, system.waited party = (stages party).waited (party = leader)
  token : ∀ party, system.told party.other = (stages party).consumed (party = leader) +
    (system.process party).sigflag.toNat + ((system.process party).pending party.signal).toNat
  noOther : ∀ party signal, signal ≠ party.signal → (system.process party).pending signal = false
  placed : ∀ party, Placed prompt (system.process party) (stages party).point

section Valid

variable {prompt : Prop} {leader party : Party} {stages : Party → Stage} {system after : System}

theorem Stage.told_le (leads : Bool) (stage : Stage) :
    stage.told leads ≤ stage.consumed leads + leads.toNat ∧
      (stage.point = .telling → stage.told leads + (!leads).toNat = stage.consumed leads) := by
  rcases stage with ⟨point, round⟩
  cases leads <;> cases point <;> simp [Stage.told, Stage.consumed, Point.told, Point.consumed, Point.waited]

/-- Nobody is told twice before it has used up a signal, and nobody has a signal when
it is the other one's turn to tell. -/
theorem Valid.told_le (valid : Valid prompt leader stages system) (party : Party) :
    system.told party ≤ (stages party.other).consumed (party.other = leader) + 1 ∧
      ((stages party).point = .telling →
        system.told party = (stages party.other).consumed (party.other = leader)) := by
  have mine := valid.token party
  have others := valid.token party.other
  rw [party.other_other] at others
  rw [valid.told] at mine others ⊢
  rcases Stage.told_le (party = leader) (stages party) with ⟨bound, atTelling⟩
  rcases Stage.told_le (party.other = leader) (stages party.other) with ⟨boundOther, _⟩
  have opposite : (decide (party.other = leader)) = !decide (party = leader) := by
    cases party <;> cases leader <;> rfl
  rw [opposite] at mine others boundOther ⊢
  generalize decide (party = leader) = leads at *
  constructor
  · cases leads <;> simp only [Bool.not_true, Bool.not_false, Bool.toNat_true,
      Bool.toNat_false] at * <;> omega
  · intro telling
    have exactly := atTelling telling
    cases leads <;> simp only [Bool.not_true, Bool.not_false, Bool.toNat_true,
      Bool.toNat_false] at * <;> omega

/-- A step of one party that does not tell. -/
theorem Valid.move (valid : Valid prompt leader stages system) {process : Process} {stage : Stage}
    (isProcess : after.process = Function.update system.process party process)
    (told : after.told = system.told)
    (sameTold : stage.told (party = leader) = (stages party).told (party = leader))
    (waited : after.waited = Function.update system.waited party (stage.waited (party = leader)))
    (token : stage.consumed (party = leader) + process.sigflag.toNat +
        (process.pending party.signal).toNat =
      (stages party).consumed (party = leader) + (system.process party).sigflag.toNat +
        ((system.process party).pending party.signal).toNat)
    (noOther : ∀ signal, signal ≠ party.signal → process.pending signal = false)
    (placed : Placed prompt process stage.point) :
    Valid prompt leader (Function.update stages party stage) after where
  told := by
    intro other
    rw [told, valid.told]
    by_cases same : other = party
    · subst same
      rw [Function.update_self, sameTold]
    · rw [Function.update_of_ne same]
  waited := by
    intro other
    rw [waited]
    by_cases same : other = party
    · subst same
      rw [Function.update_self, Function.update_self]
    · rw [Function.update_of_ne same, Function.update_of_ne same, valid.waited]
  token := by
    intro other
    rw [told, isProcess, valid.token]
    by_cases same : other = party
    · subst same
      rw [Function.update_self, Function.update_self, token]
    · rw [Function.update_of_ne same, Function.update_of_ne same]
  noOther := by
    intro other signal different
    rw [isProcess]
    by_cases same : other = party
    · subst same
      rw [Function.update_self]
      exact noOther signal different
    · rw [Function.update_of_ne same]
      exact valid.noOther other signal different
  placed := by
    intro other
    rw [isProcess]
    by_cases same : other = party
    · subst same
      rw [Function.update_self, Function.update_self]
      exact placed
    · rw [Function.update_of_ne same, Function.update_of_ne same]
      exact valid.placed other

/-- A step that leaves the number of calls of WAIT alone. -/
theorem Valid.unwaited (valid : Valid prompt leader stages system) {stage : Stage}
    (same : stage.waited (party = leader) = (stages party).waited (party = leader)) :
    system.waited = Function.update system.waited party (stage.waited (party = leader)) := by
  rw [same, ← valid.waited, Function.update_eq_self]

/-- The other party has no signal yet when it is told. -/
theorem Valid.tell (valid : Valid prompt leader stages system)
    (telling : (stages party).point = .telling) {stage : Stage} (isTesting : stage.point = .testing)
    (told : stage.told (party = leader) = (stages party).told (party = leader) + 1)
    (waited : stage.waited (party = leader) = (stages party).waited (party = leader))
    (consumed : stage.consumed (party = leader) = (stages party).consumed (party = leader))
    {receiver : Process} (isReceiver : receiver = { system.process party.other with
      pending := Function.update (system.process party.other).pending party.other.signal true })
    (isAfter : after = { system.change party.other receiver with
      told := Function.update system.told party (system.told party + 1) }) :
    Valid prompt leader (Function.update stages party stage) after := by
  subst isAfter isReceiver
  have fresh := (valid.told_le party).2 telling
  have others := valid.token party.other
  rw [party.other_other] at others
  constructor
  · intro other
    dsimp only
    by_cases same : other = party
    · subst same
      rw [Function.update_self, Function.update_self, told, valid.told]
    · rw [Function.update_of_ne same, Function.update_of_ne same, valid.told]
  · intro other
    change system.waited other = _
    by_cases same : other = party
    · subst same
      rw [Function.update_self, waited, valid.waited]
    · rw [Function.update_of_ne same, valid.waited]
  · intro other
    dsimp only [System.change]
    by_cases same : other = party
    · subst same
      rw [Function.update_of_ne (Party.other_ne _), Function.update_self, consumed,
        Function.update_of_ne (Ne.symm (Party.other_ne _)), valid.token]
    · cases Party.eq_other same
      rw [party.other_other, Function.update_self, Function.update_of_ne (Party.other_ne _),
        Function.update_self]
      dsimp only
      rw [Function.update_self, Bool.toNat_true]
      omega
  · intro other signal different
    dsimp only [System.change]
    by_cases same : other = party
    · subst same
      rw [Function.update_of_ne (Ne.symm (Party.other_ne _))]
      exact valid.noOther other signal different
    · cases Party.eq_other same
      rw [Function.update_self]
      dsimp only
      rw [Function.update_of_ne different]
      exact valid.noOther _ signal different
  · intro other
    dsimp only [System.change]
    by_cases same : other = party
    · subst same
      have placed := valid.placed other
      rw [telling] at placed
      rw [Function.update_of_ne (Ne.symm (Party.other_ne _)), Function.update_self, isTesting]
      exact placed
    · cases Party.eq_other same
      rw [Function.update_self, Function.update_of_ne (Party.other_ne _)]
      exact valid.placed party.other

end Valid

/-! ## The steps of a process -/

/-- Each process knows where it stands itself. -/
def logic (prompt : Prop) (leader : Party) :
    LocalLogic Party Call Response System (Party → Stage) Stage where
  step := fun party call before response after => perform party call before = some (response, after)
  valid := Valid prompt leader
  localOf := fun party stages => stages party
  allowed := fun party call stage => match call with
    | .kill signal => stage.point = .telling ∧ signal = party.other.signal
    | .readFlag => stage.point = .testing ∨ stage.point = .woken
    | .sigsuspend mask => stage.point = .tested ∧ mask = zeromask
    | .awake => stage.point = .sleeping
    | .clearFlag => stage.point = .clearing
    | .restoreMask => stage.point = .restoring
    | .outOfRounds => False

section Steps

variable {prompt : Prop} {leader party : Party} {round : Nat} {post : Unit → Stage → Prop}

theorem keeps_update (stages : Party → Stage) (party : Party) (stage : Stage) :
    (logic prompt leader).Keeps party stages (Function.update stages party stage) :=
  fun _ different => Function.update_of_ne different _ _

/-- A call moves its party to another point. -/
theorem moves {call : Call} {rest : Response call → Code} {stage : Stage}
    (allowed : (logic prompt leader).allowed party call stage)
    (moved : ∀ stages system, Valid prompt leader stages system → stages party = stage →
      ∀ response after, perform party call system = some (response, after) →
        ∃ next, Valid prompt leader (Function.update stages party next) after ∧
          (logic prompt leader).Safe party post (rest response) next) :
    (logic prompt leader).Safe party post (Program.perform call >>= rest) stage := by
  apply LocalLogic.Safe.perform allowed
  intro stages system valid here response after performed
  rcases moved stages system valid here response after performed with ⟨next, validNext, continued⟩
  refine ⟨_, validNext, keeps_update stages party next, ?_⟩
  change (logic prompt leader).Safe party post (rest response) (Function.update stages party next party)
  rw [Function.update_self]
  exact continued

theorem tell_safe {rest : Unit → Code} (continued : (logic prompt leader).Safe party post (rest ())
      ⟨.testing, round + (!decide (party = leader)).toNat⟩) :
    (logic prompt leader).Safe party post (tell party >>= rest) ⟨.telling, round⟩ := by
  have isTell : tell party = Program.perform (Call.kill party.other.signal) := by
    cases party <;> rfl
  have allowed : (logic prompt leader).allowed party (.kill party.other.signal) ⟨.telling, round⟩ :=
    ⟨rfl, rfl⟩
  rw [isTell]
  apply moves allowed
  intro stages system valid here response after performed
  cases performed
  refine ⟨_, valid.tell (by rw [here]) rfl ?_ ?_ ?_ rfl rfl, continued⟩
  · rw [here]
    simp only [Stage.told, Point.told]
    cases decide (party = leader) <;> rfl
  · rw [here]
    simp only [Stage.waited, Point.waited]
    omega
  · rw [here]
    simp only [Stage.consumed, Point.consumed, Point.waited]
    omega

/-- A call that only looks at the flag, when no signal comes behind it. -/
theorem readFlag_safe {rest : Bool → Code} {point : Point}
    (from_ : point = .testing ∨ point = .woken)
    (unset : point = .testing → (logic prompt leader).Safe party post (rest false) ⟨.tested, round⟩)
    (set : (logic prompt leader).Safe party post (rest true) ⟨.clearing, round⟩) :
    (logic prompt leader).Safe party post (Program.perform Call.readFlag >>= rest)
      ⟨point, round⟩ := by
  have allowed : (logic prompt leader).allowed party .readFlag ⟨point, round⟩ := from_
  apply moves allowed
  intro stages system valid here response after performed
  cases performed
  have placed := valid.placed party
  rw [here] at placed
  have unchanged (next : Point) (told : next.told (party = leader) = point.told (party = leader))
      (waited : next.waited (party = leader) = point.waited (party = leader))
      (consumed : next.consumed (party = leader) = point.consumed (party = leader))
      (placed : Placed prompt (system.process party) next) :
      Valid prompt leader (Function.update stages party ⟨next, round⟩) system := by
    apply valid.move (Function.update_eq_self party system.process).symm rfl
    · rw [here, Stage.told, Stage.told, told]
    · apply valid.unwaited
      rw [here, Stage.waited, Stage.waited, waited]
    · rw [here, Stage.consumed, Stage.consumed, consumed]
    · exact valid.noOther party
    · exact placed
  cases isSet : (system.process party).sigflag with
  | false =>
      rcases from_ with rfl | rfl
      · exact ⟨_, unchanged .tested rfl rfl rfl ⟨placed, fun _ => isSet⟩, unset rfl⟩
      · rw [placed.2] at isSet
        cases isSet
  | true =>
      refine ⟨_, unchanged .clearing ?_ ?_ ?_ ⟨?_, isSet⟩, set⟩
      all_goals rcases from_ with rfl | rfl
      all_goals first | rfl | exact placed | exact placed.1

theorem sigsuspend_safe {rest : Unit → Code}
    (continued : (logic prompt leader).Safe party post (rest ()) ⟨.sleeping, round⟩) :
    (logic prompt leader).Safe party post (Program.perform (Call.sigsuspend zeromask) >>= rest)
      ⟨.tested, round⟩ := by
  have allowed : (logic prompt leader).allowed party (.sigsuspend zeromask) ⟨.tested, round⟩ :=
    ⟨rfl, rfl⟩
  apply moves allowed
  intro stages system valid here response after performed
  cases performed
  have placed := valid.placed party
  rw [here] at placed
  refine ⟨⟨.sleeping, round⟩, ?_, continued⟩
  apply valid.move
  · rfl
  · rfl
  · rw [here]
    rfl
  · apply valid.unwaited
    rw [here]
    rfl
  · rw [here]
    rfl
  · exact valid.noOther party
  · exact ⟨rfl, rfl, fun caught => Bool.noConfusion caught, fun holds set =>
      absurd (placed.2 holds) (by rw [set]; exact Bool.noConfusion)⟩

theorem awake_safe {rest : Unit → Code}
    (continued : (logic prompt leader).Safe party post (rest ()) ⟨.woken, round⟩) :
    (logic prompt leader).Safe party post (Program.perform Call.awake >>= rest)
      ⟨.sleeping, round⟩ := by
  have allowed : (logic prompt leader).allowed party .awake ⟨.sleeping, round⟩ := rfl
  apply moves allowed
  intro stages system valid here response after performed
  have placed := valid.placed party
  rw [here] at placed
  rw [perform] at performed
  by_cases caught : (system.process party).caught = true
  · rw [if_pos caught] at performed
    cases performed
    refine ⟨⟨.woken, round⟩, ?_, continued⟩
    apply valid.move
    · rfl
    · rfl
    · rw [here]
      rfl
    · apply valid.unwaited
      rw [here]
      rfl
    · rw [here]
      rfl
    · exact valid.noOther party
    · exact ⟨rfl, placed.2.2.1 caught⟩
  · rw [if_neg caught] at performed
    cases performed

theorem clearFlag_safe {rest : Unit → Code}
    (continued : (logic prompt leader).Safe party post (rest ()) ⟨.restoring, round⟩) :
    (logic prompt leader).Safe party post (Program.perform Call.clearFlag >>= rest)
      ⟨.clearing, round⟩ := by
  have allowed : (logic prompt leader).allowed party .clearFlag ⟨.clearing, round⟩ := rfl
  apply moves allowed
  intro stages system valid here response after performed
  cases performed
  have placed := valid.placed party
  rw [here] at placed
  refine ⟨⟨.restoring, round⟩, ?_, continued⟩
  apply valid.move
  · rfl
  · rfl
  · rw [here]
    rfl
  · apply valid.unwaited
    rw [here]
    rfl
  · rw [here, placed.2]
    rfl
  · exact valid.noOther party
  · exact placed.1

theorem restoreMask_safe {rest : Unit → Code}
    (continued : (logic prompt leader).Safe party post (rest ())
      ⟨.telling, round + (decide (party = leader)).toNat⟩) :
    (logic prompt leader).Safe party post (Program.perform Call.restoreMask >>= rest)
      ⟨.restoring, round⟩ := by
  have allowed : (logic prompt leader).allowed party .restoreMask ⟨.restoring, round⟩ := rfl
  apply moves allowed
  intro stages system valid here response after performed
  cases performed
  have placed := valid.placed party
  rw [here] at placed
  refine ⟨⟨.telling, round + (decide (party = leader)).toNat⟩, ?_, continued⟩
  apply valid.move
  · rfl
  · rfl
  · rw [here]
    simp only [Stage.told, Point.told]
    omega
  · change Function.update system.waited party (system.waited party + 1) = _
    rw [valid.waited, here]
    simp only [Stage.waited, Point.waited]
    cases decide (party = leader) <;> rfl
  · rw [here]
    simp only [Stage.consumed, Point.consumed, Point.waited]
    cases decide (party = leader) <;> rfl
  · exact valid.noOther party
  · exact placed

theorem waitForSignal_safe {rest : Unit → Code}
    (continued : (logic prompt leader).Safe party post (rest ())
      ⟨.telling, round + (decide (party = leader)).toNat⟩) :
    (logic prompt leader).Safe party post (waitForSignal >>= rest) ⟨.testing, round⟩ := by
  have ends : (logic prompt leader).Safe party post
      ((do Program.perform Call.clearFlag; Program.perform Call.restoreMask : Code) >>= rest)
      ⟨.clearing, round⟩ :=
    clearFlag_safe (restoreMask_safe continued)
  -- The flag is set when `sigsuspend` returns, so it is tested twice at most.
  apply readFlag_safe (Or.inl rfl)
  · intro _
    apply sigsuspend_safe
    apply awake_safe
    apply readFlag_safe (Or.inr rfl)
    · exact Point.noConfusion
    · exact ends
  · exact ends

/-- Where a process starts into a round. -/
def Point.first (leads : Bool) : Point := if leads then .telling else .testing

theorem rounds_safe (count : Nat) : (logic prompt leader).Safe party
    (fun _ stage => stage.point ≠ .tested) (rounds (tell party) (wait party) (party = leader) count)
    ⟨Point.first (party = leader), round⟩ := by
  induction count generalizing round with
  | zero =>
      cases leads : decide (party = leader) <;> exact Point.noConfusion
  | succ count hypothesis =>
      have isWait : wait party = waitForSignal := by
        cases party <;> rfl
      have continued := @hypothesis (round + 1)
      rw [isWait] at continued ⊢
      rw [rounds]
      cases leads : decide (party = leader) with
      | true =>
          apply tell_safe
          apply waitForSignal_safe
          rw [leads] at continued ⊢
          exact continued
      | false =>
          apply waitForSignal_safe
          apply tell_safe
          rw [leads] at continued ⊢
          exact continued

end Steps

/-! ## Runs -/

abbrev Code.Processes : Type := Pool Party Call Response System Unit

/-- A signal may come at any time. -/
def Deliveries (pool : Code.Processes) (state : System) : Prop :=
  ∃ event, deliver event pool.state = some state

/-- No signal comes to a process that has found its flag 0 and is about to call
`sigsuspend`. -/
def PromptDeliveries (pool : Code.Processes) (state : System) : Prop :=
  ∃ event, deliver event pool.state = some state ∧
    ∀ mask next, pool.programs event.1 ≠ .call (.sigsuspend mask) next

/-- Runs of the two processes in which the kernel delivers signals. -/
def Reaches (deliveries : Code.Processes → System → Prop) (leader : Party) (count : Nat)
    (mask : Mask) : Code.Processes → Prop :=
  Pool.ReachableIn (fun party call before response after =>
    perform party call before = some (response, after)) deliveries (start leader count mask)

/-- A process sleeps in WAIT though it was told, and no signal is there to wake it. -/
def Stranded (system : System) (party : Party) : Prop :=
  (system.process party).suspended.isSome = true ∧ (system.process party).caught = false ∧
    (∀ signal, (system.process party).pending signal = true →
      (system.process party).mask signal = true) ∧
    system.waited party < system.told party.other

section Runs

variable {prompt : Prop} {leader party : Party} {stages : Party → Stage} {system : System}
  {deliveries : Code.Processes → System → Prop} {count : Nat} {mask : Mask}
  {pool : Code.Processes}

/-- A party has used up a signal for each WAIT, and was told each of them. -/
theorem Valid.inOrder (valid : Valid prompt leader stages system) :
    InOrder system.told system.waited := by
  intro party
  have token := valid.token party
  have waited := valid.waited party
  have consumed : (stages party).waited (party = leader) ≤ (stages party).consumed (party = leader) := by
    apply Nat.add_le_add_left
    cases (stages party).point <;> simp [Point.waited, Point.consumed]
  omega

/-- A signal that comes does not bring a process anywhere else. -/
theorem Valid.deliver (valid : Valid prompt leader stages system) {event : Party × Signal}
    {after : System} (delivered : deliver event system = some after)
    (apart : prompt → (stages event.1).point ≠ .tested) : Valid prompt leader stages after := by
  rcases event with ⟨party, signal⟩
  rw [TellWait.deliver] at delivered
  split at delivered
  · rename_i comes
    cases delivered
    have isSignal : signal = party.signal := by
      by_contra different
      have none := valid.noOther party signal different
      rw [comes.1] at none
      cases none
    subst isSignal
    have token := valid.token party
    have bound := (valid.told_le party.other).1
    rw [party.other_other] at bound
    have unset : (system.process party).sigflag = false := by
      cases isSet : (system.process party).sigflag with
      | false => rfl
      | true =>
          rw [isSet, comes.1, Bool.toNat_true] at token
          omega
    have stays : Function.update stages party (stages party) = stages :=
      Function.update_eq_self party stages
    rw [← stays]
    apply valid.move
    · rfl
    · rfl
    · rfl
    · exact valid.unwaited rfl
    · rw [unset, comes.1]
      dsimp only
      rw [Function.update_self]
      rfl
    · intro other different
      dsimp only
      rw [Function.update_of_ne different]
      exact valid.noOther party other different
    · have placed := valid.placed party
      cases point : (stages party).point with
      | tested =>
          rw [point] at placed
          exact ⟨placed.1, fun holds => absurd point (apart holds)⟩
      | sleeping =>
          rw [point] at placed
          exact ⟨placed.1, placed.2.1, fun _ => rfl, fun _ _ => rfl⟩
      | woken | clearing =>
          rw [point] at placed
          exact ⟨placed.1, rfl⟩
      | telling | testing | restoring =>
          rw [point] at placed
          exact placed
  · cases delivered

theorem tolerates (comes : ∀ pool state, deliveries pool state → Deliveries pool state)
    (inTime : prompt → ∀ pool state, deliveries pool state → PromptDeliveries pool state) :
    (logic prompt leader).Tolerates (fun _ _ stage => stage.point ≠ .tested) deliveries := by
  intro pool state stages valid all delivers
  by_cases holds : prompt
  · rcases inTime holds pool state delivers with ⟨event, delivered, elsewhere⟩
    apply valid.deliver delivered
    intro _ tested
    have mine := all event.1
    cases program : pool.programs event.1 with
    | done _ =>
        rw [program] at mine
        exact mine tested
    | call call next =>
        rw [program] at mine
        have allowed := mine.1
        change (stages event.1).point = .tested at tested
        cases call with
        | sigsuspend mask => exact elsewhere mask next program
        | kill | readFlag | awake | clearFlag | restoreMask | outOfRounds =>
            simp only [logic, tested, reduceCtorEq, or_self, false_and] at allowed
  · rcases comes pool state delivers with ⟨event, delivered⟩
    exact valid.deliver delivered fun absurd => (holds absurd).elim

theorem start_safe : (logic prompt leader).PoolSafe (fun _ _ stage => stage.point ≠ .tested)
    (start leader count mask) := by
  refine ⟨fun party => ⟨Point.first (party = leader), 0⟩, ?_, fun party => rounds_safe count⟩
  constructor
  · intro party
    cases leads : decide (party = leader) <;> rfl
  · intro party
    cases leads : decide (party = leader) <;> rfl
  · intro party
    cases leads : decide (party = leader) <;> cases party <;> rfl
  · intro party signal _
    cases party <;> rfl
  · intro party
    cases leads : decide (party = leader) <;> cases party <;> rfl

theorem Reaches.valid
    (comes : ∀ pool state, deliveries pool state → Deliveries pool state)
    (inTime : prompt → ∀ pool state, deliveries pool state → PromptDeliveries pool state)
    (reached : Reaches deliveries leader count mask pool) :
    ∃ stages, Valid prompt leader stages pool.state ∧
      ∀ party never, pool.programs party ≠ .call .outOfRounds never := by
  have begun : (logic prompt leader).PoolSafe (fun _ _ stage => stage.point ≠ .tested)
      (start leader count mask) := start_safe
  rcases begun.reachableIn (tolerates comes inTime) reached with ⟨stages, valid, all⟩
  refine ⟨stages, valid, fun party never waiting => ?_⟩
  have mine := all party
  rw [waiting] at mine
  exact mine.1

/-- Where no signal came between the test and `sigsuspend`, a process that sleeps was
not told yet. -/
theorem Valid.not_stranded (valid : Valid True leader stages system) (party : Party) :
    ¬ Stranded system party := by
  rintro ⟨suspended, uncaught, masked, behind⟩
  have placed := valid.placed party
  cases point : (stages party).point with
  | sleeping =>
      rw [point] at placed
      have unset : (system.process party).sigflag = false := by
        cases isSet : (system.process party).sigflag with
        | false => rfl
        | true =>
            rw [placed.2.2.2 trivial isSet] at uncaught
            cases uncaught
      have silent : (system.process party).pending party.signal = false := by
        cases comes : (system.process party).pending party.signal with
        | false => rfl
        | true =>
            have blocked := masked party.signal comes
            rw [placed.2.1] at blocked
            cases blocked
      have token := valid.token party
      rw [unset, silent, Stage.consumed, point] at token
      rw [valid.waited, Stage.waited, point, token] at behind
      exact Nat.lt_irrefl _ behind
  | telling | testing | tested | woken | clearing | restoring =>
      rw [placed.awake (by rw [point]; exact Point.noConfusion)] at suspended
      cases suspended

/-- WAIT returns only behind its TELL in every run, and its loop ends. In a run in
which no signal comes between a test of the flag and `sigsuspend`, nobody sleeps that
was told; with pipes nobody does in any run. -/
theorem rounds_alternate (leader : Party) (count : Nat) (mask : Mask) :
    (∀ pool, Reaches Deliveries leader count mask pool →
      InOrder pool.state.told pool.state.waited ∧
        ∀ party never, pool.programs party ≠ .call .outOfRounds never) ∧
    (∀ pool, Reaches PromptDeliveries leader count mask pool →
      InOrder pool.state.told pool.state.waited ∧ ∀ party, ¬ Stranded pool.state party) ∧
    ∀ pool, Pipes.Reaches leader count pool →
      InOrder pool.state.told pool.state.waited ∧ ∀ party, ¬ Pipes.Stranded pool party := by
  refine ⟨fun pool reached => ?_, fun pool reached => ?_, fun pool reached => ?_⟩
  · have always : False → ∀ pool state, Deliveries pool state → PromptDeliveries pool state :=
      False.elim
    rcases reached.valid (fun _ _ delivers => delivers) always with ⟨stages, valid, ends⟩
    exact ⟨valid.inOrder, ends⟩
  · have inTime : True → ∀ pool state, PromptDeliveries pool state → PromptDeliveries pool state :=
      fun _ _ _ delivers => delivers
    rcases reached.valid (fun _ _ ⟨event, delivered, _⟩ => ⟨event, delivered⟩) inTime with
      ⟨stages, valid, _⟩
    exact ⟨valid.inOrder, valid.not_stranded⟩
  · have sound := Pipes.reaches_sound reached
    exact ⟨sound.1, fun party => (sound.2 party).1⟩

/-- In the second round the parent tells the child between its test of the flag and
`sigsuspend`, where the signal is not blocked any more. -/
theorem rounds_lose_signal : ¬ ∀ pool, Reaches Deliveries .parent 2 zeromask pool →
    InOrder pool.state.told pool.state.waited ∧ ∀ party, ¬ Stranded pool.state party := by
  intro holds
  let steps : List (Party ⊕ Party × Signal) :=
    [.inl .parent, .inl .child, .inl .child, .inr (.child, .SIGUSR1), .inl .child, .inl .child,
      .inl .child, .inl .child, .inl .child,
      .inl .parent, .inl .parent, .inr (.parent, .SIGUSR2), .inl .parent, .inl .parent,
      .inl .parent, .inl .parent,
      .inl .child, .inl .parent, .inr (.child, .SIGUSR1), .inl .child]
  have lost : ∃ pool, (start .parent 2 zeromask).schedule perform deliver steps = some pool ∧
      Stranded pool.state .child := by
    refine ⟨_, rfl, rfl, rfl, fun signal => ?_, ?_⟩
    · cases signal <;> exact Bool.noConfusion
    · exact Nat.lt_succ_self 1
  rcases lost with ⟨pool, scheduled, stranded⟩
  exact (holds pool (Pool.reachableIn_of_schedule scheduled)).2 .child stranded

end Runs

end Apue.TellWait
