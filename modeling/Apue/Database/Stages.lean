import Apue.Database.Opening
import Apue.Foundation.LocalReasoning

/-! # Where processes are with the index file

What a process may rely on while others open and use the same database: the
records it has come to stay where they are, and nobody else appends a record
while it holds the lock for that, or makes the header while it holds the lock on
the whole file.
-/

namespace Apue.Database

open Apue.Foundation Ascii

/-- The lengths of the texts of the records, by the offsets of the records. -/
abbrev Sizes : Type := Nat → Option Nat

def Grows (before after : Sizes) : Prop :=
  ∀ offset length, before offset = some length → after offset = some length

theorem Grows.refl (sizes : Sizes) : Grows sizes sizes := fun _ _ => id

theorem Grows.trans {first second third : Sizes} (front : Grows first second)
    (behind : Grows second third) : Grows first third :=
  fun offset length sized => behind offset length (front offset length sized)

/-- A pointer is 0 or leads to a record. -/
def Sizes.Leads (sizes : Sizes) (pointer : Nat) : Prop := pointer = 0 ∨ sizes pointer ≠ none

/-- There is a pointer at an offset: one of the header, or that of a record. -/
def Sizes.HasPointer (sizes : Sizes) (offset : Nat) : Prop :=
  (∃ field < NHASH_DEF + 1, offset = field * PTR_SZ) ∨ sizes offset ≠ none

theorem Grows.known {before after : Sizes} (grows : Grows before after) {offset : Nat}
    (known : before offset ≠ none) : after offset ≠ none := by
  rcases Option.ne_none_iff_exists'.mp known with ⟨length, sized⟩
  rw [grows offset length sized]
  exact Option.some_ne_none _

theorem Grows.leads {before after : Sizes} (grows : Grows before after) {pointer : Nat}
    (leads : before.Leads pointer) : after.Leads pointer :=
  leads.imp_right grows.known

theorem Grows.hasPointer {before after : Sizes} (grows : Grows before after) {offset : Nat}
    (has : before.HasPointer offset) : after.HasPointer offset :=
  has.imp_right grows.known

/-- The place of a pointer that a process has come to. -/
theorem Sizes.HasPointer.get {sizes : Sizes} {pieces : Pieces} {offset : Nat}
    (has : sizes.HasPointer offset) (wellFormed : pieces.WellFormed)
    (grows : Grows sizes pieces.sizes) :
    ∃ piece pointer, pieces.get offset = some piece ∧ piece.pointer = some pointer := by
  rcases has with ⟨field, inside, rfl⟩ | known
  · rcases wellFormed.get_field inside with ⟨pointer, found⟩
    exact ⟨_, pointer, found, rfl⟩
  · rcases Option.ne_none_iff_exists'.mp (grows.known known) with ⟨length, sized⟩
    rcases Option.bind_eq_some_iff.mp sized with ⟨piece, found, isRow⟩
    rcases Piece.size_eq_some isRow with ⟨record, rfl, _⟩
    exact ⟨_, _, found, rfl⟩

inductive Stage
  | closed
  | opening
  | creating
  | filling
  | working (sizes : Sizes)
  | appending (sizes : Sizes) (length : Nat)

/-- The lock of a process on the bytes of the index file from an offset on. -/
def LocksFrom (start : Nat) (locks : Nat → Option LockKind) : Prop :=
  ∀ byte, start ≤ byte → locks byte = some .write

namespace Stage

/-- What a process knows at its stage. -/
def Holds (stage : Stage) (pieces : Option Pieces) (locks : Nat → Option LockKind) : Prop :=
  match stage with
  | closed => True
  | opening => True
  | creating => LocksFrom 0 locks
  | filling => LocksFrom 0 locks ∧ pieces = none
  | working sizes => ∃ there, pieces = some there ∧ Grows sizes there.sizes
  | appending sizes length => ∃ there, pieces = some there ∧ Grows sizes there.sizes ∧
      there.file.length = length ∧ LocksFrom recordsOffset locks

/-- The database is used, so it has its header. -/
def Uses : Stage → Prop
  | working _ => True
  | appending _ _ => True
  | _ => False

end Stage

/-- The index file in pieces, once it has its header, and the stages of the processes. -/
structure Picture (Process : Type) where
  pieces : Option Pieces
  stages : Process → Stage

section

variable {Process : Type} [DecidableEq Process]

def Picture.move (picture : Picture Process) (pieces : Option Pieces) (process : Process)
    (stage : Stage) : Picture Process where
  pieces := pieces
  stages := Function.update picture.stages process stage

theorem Picture.move_same (picture : Picture Process) (pieces : Option Pieces)
    (process : Process) (stage : Stage) :
    (picture.move pieces process stage).stages process = stage :=
  Function.update_self _ _ _

theorem Picture.move_other (picture : Picture Process) (pieces : Option Pieces)
    {process other : Process} (stage : Stage) (different : other ≠ process) :
    (picture.move pieces process stage).stages other = picture.stages other :=
  Function.update_of_ne different _ _

/-- Where one process has a write lock on a byte, no other has a lock. -/
def Exclusive (locks : Process → File → Nat → Option LockKind) : Prop :=
  ∀ process other, process ≠ other → ∀ file byte, locks process file byte = some .write →
    locks other file byte = none

structure Sound (picture : Picture Process) (system : System Process) : Prop where
  empty : picture.pieces = none → system.state.files .idx = []
  index : ∀ pieces, picture.pieces = some pieces → pieces.WellFormed ∧
    system.state.files .idx = pieces.file ∧ system.there .idx = true
  exclusive : Exclusive system.state.locks
  stages : ∀ process, (picture.stages process).Holds picture.pieces
    (system.state.locks process .idx)
  opened : ∀ process, picture.stages process ≠ .closed →
    system.descriptors process .idx ≠ none
  present : ∀ process, system.descriptors process .idx ≠ none → system.there .idx = true
  handles : ∀ process, system.handles process = true → (picture.stages process).Uses

omit [DecidableEq Process] in
theorem setFile_same (state : State Process) (file : File) (contents : Bytes) :
    (setFile state file contents).files file = contents := Function.update_self _ _ _

omit [DecidableEq Process] in
theorem setFile_other (state : State Process) {file other : File} (contents : Bytes)
    (different : other ≠ file) : (setFile state file contents).files other = state.files other :=
  Function.update_of_ne different _ _

/-! ## Locks -/

theorem not_conflicts_write {held : Option LockKind} (apart : conflicts .write held = false) :
    held = none := by
  cases held with
  | none => rfl
  | some kind => cases kind <;> cases apart

theorem conflicts_with_write (wanted : LockKind) : conflicts wanted (some .write) = true := by
  cases wanted <;> rfl

theorem Exclusive.setLocks {state : State Process} (exclusive : Exclusive state.locks)
    {process : Process} {file : File} {start length : Nat} {kind : Option LockKind}
    (granted : ∀ wanted, kind = some wanted →
      Granted process state (.lock file wanted start length)) :
    Exclusive (setLocks state process file start length kind).locks := by
  have mine : ∀ other place byte, other ≠ process →
      (Apue.Database.setLocks state process file start length kind).locks other place byte =
        state.locks other place byte := by
    intro other place byte different
    rw [Apue.Database.setLocks]
    simp only [Function.update_of_ne different]
  have here : ∀ place byte,
      (Apue.Database.setLocks state process file start length kind).locks process place byte =
        if place = file ∧ inRange start length byte = true then kind
        else state.locks process place byte := by
    intro place byte
    rw [Apue.Database.setLocks]
    simp only [Function.update_self]
    by_cases same : place = file
    · subst same
      simp only [Function.update_self, true_and]
    · simp only [Function.update_of_ne same, same, false_and, if_false]
  have free : ∀ other byte wanted, other ≠ process → kind = some wanted →
      inRange start length byte = true → conflicts wanted (state.locks other file byte) = false :=
    fun other byte wanted different isKind inside => granted wanted isKind other different byte inside
  intro first second different place byte locked
  by_cases isFirst : first = process
  · subst isFirst
    rw [mine second place byte different.symm]
    rw [here] at locked
    split at locked
    · rename_i inside
      rcases inside with ⟨rfl, inside⟩
      exact not_conflicts_write (free second byte .write different.symm locked inside)
    · exact exclusive first second different place byte locked
  · rw [mine first place byte isFirst] at locked
    by_cases isSecond : second = process
    · subst isSecond
      rw [here]
      split
      · rename_i inside
        rcases inside with ⟨rfl, inside⟩
        cases isKind : kind with
        | none => rfl
        | some wanted =>
            have apart := free first byte wanted isFirst isKind inside
            rw [locked, conflicts_with_write] at apart
            cases apart
      · exact exclusive first second different place byte locked
    · rw [mine second place byte isSecond]
      exact exclusive first second different place byte locked

/-! ## Steps that one process takes -/

theorem Stage.Holds.replace {stage : Stage} {before after : Pieces}
    {locks : Nat → Option LockKind} (holds : stage.Holds (some before) locks)
    (sizes : after.sizes = before.sizes) (length : after.file.length = before.file.length) :
    stage.Holds (some after) locks := by
  cases stage with
  | closed => trivial
  | opening => trivial
  | creating => exact holds
  | filling => cases holds.2
  | working known =>
      rcases holds with ⟨there, same, grows⟩
      cases same
      exact ⟨after, rfl, sizes ▸ grows⟩
  | appending known size =>
      rcases holds with ⟨there, same, grows, isSize, locked⟩
      cases same
      exact ⟨after, rfl, sizes ▸ grows, length.trans isSize, locked⟩

theorem Stage.Holds.grow {stage : Stage} {before after : Pieces}
    {locks : Nat → Option LockKind} (holds : stage.Holds (some before) locks)
    (grows : Grows before.sizes after.sizes) (unlocked : locks recordsOffset ≠ some .write) :
    stage.Holds (some after) locks := by
  cases stage with
  | closed => trivial
  | opening => trivial
  | creating => exact holds
  | filling => cases holds.2
  | working known =>
      rcases holds with ⟨there, same, known⟩
      cases same
      exact ⟨after, rfl, known.trans grows⟩
  | appending known size =>
      rcases holds with ⟨there, _, _, _, locked⟩
      exact absurd (locked recordsOffset (Nat.le_refl _)) unlocked

/-- The header is written while one process has locked the whole file. -/
theorem Stage.Holds.fill {stage : Stage} {after : Pieces} {locks : Nat → Option LockKind}
    (holds : stage.Holds none locks) (free : locks 0 = none) : stage.Holds (some after) locks := by
  cases stage with
  | closed => trivial
  | opening => trivial
  | creating => exact holds
  | filling =>
      rw [holds.1 0 (Nat.le_refl _)] at free
      cases free
  | working known =>
      rcases holds with ⟨there, same, _⟩
      cases same
  | appending known size =>
      rcases holds with ⟨there, same, _⟩
      cases same

variable {picture : Picture Process} {system : System Process} {process : Process}
  {pieces : Option Pieces} {state : State Process} {there : Stage}

/-- A process goes on with a change of the files or the locks that the other
processes are not disturbed by. -/
theorem Sound.step (sound : Sound picture system) (working : picture.stages process ≠ .closed)
    (empty : pieces = none → state.files .idx = [])
    (index : ∀ known, pieces = some known → known.WellFormed ∧ state.files .idx = known.file)
    (exclusive : Exclusive state.locks) (mine : there.Holds pieces (state.locks process .idx))
    (others : ∀ other, other ≠ process →
      (picture.stages other).Holds picture.pieces (system.state.locks other .idx) →
      (picture.stages other).Holds pieces (state.locks other .idx))
    (uses : (picture.stages process).Uses → there.Uses) :
    Sound (picture.move pieces process there) { system with state := state } where
  empty := empty
  index := fun known isKnown => ⟨(index known isKnown).1, (index known isKnown).2,
    sound.present process (sound.opened process working)⟩
  exclusive := exclusive
  stages := by
    intro other
    by_cases same : other = process
    · subst same
      rw [Picture.move_same]
      exact mine
    · rw [Picture.move_other _ _ _ same]
      exact others other same (sound.stages other)
  opened := by
    intro other isOpen
    by_cases same : other = process
    · subst same
      exact sound.opened other working
    · rw [Picture.move_other _ _ _ same] at isOpen
      exact sound.opened other isOpen
  present := sound.present
  handles := by
    intro other holds
    by_cases same : other = process
    · subst same
      rw [Picture.move_same]
      exact uses (sound.handles other holds)
    · rw [Picture.move_other _ _ _ same]
      exact sound.handles other holds

/-- A step that leaves the index file as it is, and the locks of the others. -/
theorem Sound.quiet (sound : Sound picture system) (working : picture.stages process ≠ .closed)
    (same : state.files .idx = system.state.files .idx) (exclusive : Exclusive state.locks)
    (locks : ∀ other, other ≠ process → state.locks other = system.state.locks other)
    (mine : there.Holds picture.pieces (state.locks process .idx))
    (uses : (picture.stages process).Uses → there.Uses) :
    Sound (picture.move picture.pieces process there) { system with state := state } := by
  apply sound.step working _ _ exclusive mine _ uses
  · exact fun none => same.trans (sound.empty none)
  · intro known isKnown
    exact ⟨(sound.index known isKnown).1, same.trans (sound.index known isKnown).2.1⟩
  · intro other different holds
    rwa [locks other different]

/-! ## Rules for the calls of the library -/

variable (Process) in
/-- The library among other processes. No call comes to the place where
`_db_readptr` ends the process for a pointer field that is not there. -/
def libraryLogic : LocalLogic Process Command Response (System Process) (Picture Process) Stage where
  step := fun process command before response after =>
    System.Step process (.library command) before (some response) after
  valid := Sound
  localOf := fun process picture => picture.stages process
  allowed := fun _ command _ => command ≠ .exit .readptrRead

abbrev Guarded {Result : Type} (process : Process) (post : Result → DB → Stage → Prop)
    (function : Library Result) (db : DB) (here : Stage) : Prop :=
  (libraryLogic Process).Safe process (fun outcome there => post outcome.1 outcome.2 there)
    (function db) here

/-- The calls that may change the index file, and the one that is never made. -/
def Disturbs : Command → Prop
  | .open _ _ => True
  | .write .idx _ _ => True
  | .exit failure => failure = .readptrRead
  | _ => False

/-- What a call finds out about the index file. -/
def Answers (pieces : Pieces) (command : Command) (response : Response command) : Prop :=
  match command, response with
  | .read .idx offset count, text => text = pread pieces.file offset count
  | _, _ => True

section Rules

variable {here : Stage} {sizes : Sizes} {db : DB} {command : Command}
  {post : Response command → DB → Stage → Prop}

theorem perform_guarded (allowed : command ≠ .exit .readptrRead)
    (moved : ∀ (picture : Picture Process) (system : System Process), Sound picture system →
      picture.stages process = here → ∀ response state, Granted process system.state command →
      effect process system.state command = some (response, state) →
        ∃ pieces there, Sound (picture.move pieces process there) { system with state := state } ∧
          post response db there) :
    Guarded process post (perform command) db here := by
  refine ⟨allowed, fun picture system sound same response after stepped => ?_⟩
  rcases stepped with ⟨_, state, ⟨granted, performed⟩, rfl⟩
  rcases moved picture system sound same response state granted performed with
    ⟨pieces, there, sound', holds⟩
  have arrived : (libraryLogic Process).localOf process (picture.move pieces process there) =
      there := picture.move_same pieces process there
  refine ⟨picture.move pieces process there, sound', ?_, ?_⟩
  · exact fun other different => picture.move_other pieces there different
  · rw [arrived]
    exact holds

/-- What a call that does not disturb the index file leaves, and what it finds. -/
theorem effect_quiet {state after : State Process} {response : Response command}
    (quiet : ¬ Disturbs command) (exclusive : Exclusive state.locks)
    (granted : Granted process state command)
    (performed : effect process state command = some (response, after)) :
    after.files .idx = state.files .idx ∧ Exclusive after.locks ∧
      ∀ other, other ≠ process → after.locks other = state.locks other := by
  cases command with
  | «open» file truncate => exact absurd trivial quiet
  | exit failure => cases performed
  | write file offset text =>
      cases file with
      | idx => exact absurd trivial quiet
      | dat =>
          cases performed
          exact ⟨setFile_other _ _ (by decide), exclusive, fun _ _ => rfl⟩
  | lock file kind start length =>
      cases performed
      refine ⟨rfl, exclusive.setLocks ?_, fun other different => Function.update_of_ne different _ _⟩
      rintro wanted ⟨⟩
      exact granted
  | unlock file start length =>
      cases performed
      exact ⟨rfl, exclusive.setLocks nofun, fun other different => Function.update_of_ne different _ _⟩
  | size file =>
      cases performed
      exact ⟨rfl, exclusive, fun _ _ => rfl⟩
  | read file offset count =>
      cases performed
      exact ⟨rfl, exclusive, fun _ _ => rfl⟩
  | invoke call =>
      cases performed
      exact ⟨rfl, exclusive, fun _ _ => rfl⟩
  | respond result =>
      cases performed
      exact ⟨rfl, exclusive, fun _ _ => rfl⟩

theorem answers_effect {pieces : Pieces} {state after : State Process}
    {response : Response command} (file : state.files .idx = pieces.file)
    (performed : effect process state command = some (response, after)) :
    Answers pieces command response := by
  cases command with
  | read place offset count =>
      cases place with
      | idx =>
          cases performed
          exact congrArg (pread · offset count) file
      | dat => trivial
  | _ => trivial

/-- A call that leaves the index file alone, with what it finds out there. -/
theorem look_guarded (quiet : ¬ Disturbs command)
    (continued : ∀ pieces : Pieces, pieces.WellFormed → Grows sizes pieces.sizes → ∀ response,
      Answers pieces command response → ∃ sizes', Grows sizes' pieces.sizes ∧
        post response db (.working sizes')) :
    Guarded process post (perform command) db (.working sizes) := by
  apply perform_guarded
  · rintro rfl
    exact quiet rfl
  intro picture system sound same response state granted performed
  have holds := sound.stages process
  rw [same] at holds
  rcases holds with ⟨pieces, isPieces, grows⟩
  rcases sound.index pieces isPieces with ⟨wellFormed, file, _⟩
  rcases continued pieces wellFormed grows response (answers_effect file performed) with
    ⟨sizes', known, holds⟩
  rcases effect_quiet quiet sound.exclusive granted performed with ⟨kept, exclusive, others⟩
  refine ⟨picture.pieces, .working sizes', ?_, holds⟩
  apply sound.quiet _ kept exclusive others
  · exact ⟨pieces, isPieces, known⟩
  · exact fun _ => trivial
  · rw [same]
    exact Stage.noConfusion

/-- A call whose answer does not matter. -/
theorem quiet_guarded (quiet : ¬ Disturbs command)
    (continued : ∀ response, post response db (.working sizes)) :
    Guarded process post (perform command) db (.working sizes) := by
  apply look_guarded quiet
  exact fun pieces _ grows response _ => ⟨sizes, grows, continued response⟩

/-- A write that replaces a piece of the index file by one of its length. -/
theorem rewrite_guarded {offset : Nat} {text : Bytes} {post : Unit → DB → Stage → Prop}
    (rewritten : ∀ pieces : Pieces, pieces.WellFormed → Grows sizes pieces.sizes →
      ∃ after : Pieces, after.WellFormed ∧ after.sizes = pieces.sizes ∧
        after.file.length = pieces.file.length ∧ pwrite pieces.file offset text = after.file)
    (continued : post () db (.working sizes)) :
    Guarded process post (perform (.write .idx offset text)) db (.working sizes) := by
  apply perform_guarded Command.noConfusion
  rintro picture system sound same ⟨⟩ state _ performed
  cases performed
  have holds := sound.stages process
  rw [same] at holds
  rcases holds with ⟨pieces, isPieces, grows⟩
  rcases sound.index pieces isPieces with ⟨wellFormed, file, _⟩
  rcases rewritten pieces wellFormed grows with ⟨after, afterFormed, afterSizes, length, written⟩
  refine ⟨some after, .working sizes, ?_, continued⟩
  have working : picture.stages process ≠ .closed := by
    rw [same]
    exact Stage.noConfusion
  refine sound.step working nofun ?_ sound.exclusive ?_ ?_ fun _ => trivial
  · rintro known ⟨⟩
    rw [setFile_same, file, written]
    exact ⟨afterFormed, rfl⟩
  · exact ⟨after, rfl, afterSizes ▸ grows⟩
  · intro other _ others
    rw [isPieces] at others
    exact others.replace afterSizes length

/-- A pointer is stored in a pointer field. -/
theorem storePointer_guarded {offset : Nat} {value : Pointer} {post : Unit → DB → Stage → Prop}
    (has : sizes.HasPointer offset) (leads : sizes.Leads value)
    (continued : post () db (.working sizes)) :
    Guarded process post (perform (.write .idx offset (encodePointer value))) db
      (.working sizes) := by
  apply rewrite_guarded _ continued
  intro pieces wellFormed grows
  rcases has.get wellFormed grows with ⟨piece, pointer, found, points⟩
  have same := Pieces.encode_setPointer_length points value
  refine ⟨_, ?_, Pieces.sizes_set found same (by simp), Pieces.file_set_length found same,
    Pieces.pwrite_pointer found points value⟩
  apply wellFormed.set found same (by simp) (by simp)
  intro stored isStored
  have isValue : stored = value := by
    cases piece with
    | newline => cases points
    | field _ => exact (Option.some.inj isStored).symm
    | row _ => exact (Option.some.inj isStored).symm
  rw [isValue]
  exact grows.leads leads

/-- A record is written over one whose text has the same length. -/
theorem storeRow_guarded {offset : Nat} {new : Row} {post : Unit → DB → Stage → Prop}
    (sized : sizes offset = some new.text.length) (leads : sizes.Leads new.pointer)
    (continued : post () db (.working sizes)) :
    Guarded process post (perform (.write .idx offset (Piece.row new).encode)) db
      (.working sizes) := by
  apply rewrite_guarded _ continued
  intro pieces wellFormed grows
  rcases Option.bind_eq_some_iff.mp (grows offset _ sized) with ⟨piece, found, isRow⟩
  rcases Piece.size_eq_some isRow with ⟨record, rfl, length⟩
  have same : (Piece.row new).encode.length = (Piece.row record).encode.length := by
    rw [new.encode_length, record.encode_length, length]
  have size : (Piece.row new).size = (Piece.row record).size := congrArg some length.symm
  refine ⟨_, ?_, Pieces.sizes_set found same size, Pieces.file_set_length found same,
    Pieces.pwrite_row found same⟩
  apply wellFormed.set found same rfl size
  rintro pointer ⟨⟩
  exact grows.leads leads

/-! ### A record behind the others -/

theorem lockEnd_guarded {post : Unit → DB → Stage → Prop}
    (continued : ∀ length, post () db (.appending sizes length)) :
    Guarded process post (perform (.lock .idx .write recordsOffset 0)) db (.working sizes) := by
  apply perform_guarded Command.noConfusion
  rintro picture system sound same ⟨⟩ state granted performed
  have quiet : ¬ Disturbs (.lock .idx .write recordsOffset 0) := id
  rcases effect_quiet quiet sound.exclusive granted performed with ⟨kept, exclusive, others⟩
  cases performed
  have holds := sound.stages process
  rw [same] at holds
  rcases holds with ⟨pieces, isPieces, grows⟩
  refine ⟨picture.pieces, .appending sizes pieces.file.length, ?_, continued _⟩
  apply sound.quiet _ kept exclusive others
  · refine ⟨pieces, isPieces, grows, rfl, fun byte behind => ?_⟩
    simp only [setLocks, Function.update_self, if_pos ((LockName.inRange_zero _ _).mpr behind)]
  · exact fun _ => trivial
  · rw [same]
    exact Stage.noConfusion

theorem sizeEnd_guarded {length : Nat} {post : Nat → DB → Stage → Prop}
    (continued : post length db (.appending sizes length)) :
    Guarded process post (perform (.size .idx)) db (.appending sizes length) := by
  apply perform_guarded Command.noConfusion
  intro picture system sound same response state _ performed
  cases performed
  have holds := sound.stages process
  rw [same] at holds
  rcases holds with ⟨pieces, isPieces, grows, isLength, locked⟩
  refine ⟨picture.pieces, .appending sizes length, ?_, ?_⟩
  · apply sound.quiet _ rfl sound.exclusive fun _ _ => rfl
    · exact ⟨pieces, isPieces, grows, isLength, locked⟩
    · exact fun _ => trivial
    · rw [same]
      exact Stage.noConfusion
  · rw [(sound.index pieces isPieces).2.1, isLength]
    exact continued

theorem appendRow_guarded {length : Nat} {new : Row} {post : Unit → DB → Stage → Prop}
    (leads : sizes.Leads new.pointer)
    (continued : ∀ sizes', Grows sizes sizes' → sizes' length = some new.text.length →
      post () db (.working sizes')) :
    Guarded process post (perform (.write .idx length (Piece.row new).encode)) db
      (.appending sizes length) := by
  apply perform_guarded Command.noConfusion
  rintro picture system sound same ⟨⟩ state _ performed
  cases performed
  have holds := sound.stages process
  rw [same] at holds
  rcases holds with ⟨pieces, isPieces, grows, rfl, locked⟩
  rcases sound.index pieces isPieces with ⟨wellFormed, file, _⟩
  have behind : Grows pieces.sizes (Pieces.sizes (pieces ++ [.row new])) :=
    fun _ _ sized => Pieces.sizes_append_of_some sized new
  have added : Pieces.sizes (pieces ++ [.row new]) pieces.file.length = some new.text.length := by
    rw [Pieces.sizes_append, if_pos rfl]
  refine ⟨some (pieces ++ [.row new]), .working _, ?_, continued _ (grows.trans behind) added⟩
  have working : picture.stages process ≠ .closed := by
    rw [same]
    exact Stage.noConfusion
  refine sound.step working nofun ?_ sound.exclusive ?_ ?_ fun _ => trivial
  · rintro known ⟨⟩
    rw [setFile_same, file, Pieces.pwrite_end]
    exact ⟨wellFormed.append (grows.leads leads), rfl⟩
  · exact ⟨_, rfl, Grows.refl _⟩
  · intro other different others
    rw [isPieces] at others
    apply others.grow behind
    have free := sound.exclusive process other different.symm .idx recordsOffset
      (locked _ (Nat.le_refl _))
    rw [free]
    exact (Option.some_ne_none _).symm

/-! ### The header -/

theorem lockAll_guarded {post : Unit → DB → Stage → Prop}
    (continued : post () db .creating) :
    Guarded process post (perform (.lock .idx .write 0 0)) db .opening := by
  apply perform_guarded Command.noConfusion
  rintro picture system sound same ⟨⟩ state granted performed
  have quiet : ¬ Disturbs (.lock .idx .write 0 0) := id
  rcases effect_quiet quiet sound.exclusive granted performed with ⟨kept, exclusive, others⟩
  cases performed
  refine ⟨picture.pieces, .creating, ?_, continued⟩
  apply sound.quiet _ kept exclusive others
  · intro byte behind
    simp only [setLocks, Function.update_self, if_pos ((LockName.inRange_zero _ _).mpr behind)]
  · rw [same]
    exact id
  · rw [same]
    exact Stage.noConfusion

theorem sizeAll_guarded {post : Nat → DB → Stage → Prop} (empty : post 0 db .filling)
    (full : ∀ size, size ≠ 0 → post size db (.working fun _ => none)) :
    Guarded process post (perform (.size .idx)) db .creating := by
  apply perform_guarded Command.noConfusion
  intro picture system sound same response state _ performed
  cases performed
  have holds := sound.stages process
  rw [same] at holds
  have working : picture.stages process ≠ .closed := by
    rw [same]
    exact Stage.noConfusion
  have uses : ¬ (picture.stages process).Uses := by
    rw [same]
    exact id
  cases isPieces : picture.pieces with
  | none =>
      refine ⟨none, .filling, ?_, ?_⟩
      · rw [← isPieces]
        exact sound.quiet working rfl sound.exclusive (fun _ _ => rfl) ⟨holds, isPieces⟩
          fun using' => absurd using' uses
      · rw [sound.empty isPieces]
        exact empty
  | some pieces =>
      rcases sound.index pieces isPieces with ⟨wellFormed, file, _⟩
      refine ⟨some pieces, .working fun _ => none, ?_, ?_⟩
      · rw [← isPieces]
        exact sound.quiet working rfl sound.exclusive (fun _ _ => rfl) ⟨pieces, isPieces, nofun⟩
          fun _ => trivial
      · have header := wellFormed.header.length_le
        apply full
        rw [file]
        have : recordsOffset = 967 := rfl
        omega

theorem fill_guarded {post : Unit → DB → Stage → Prop}
    (continued : post () db (.working fun _ => none)) :
    Guarded process post (perform (.write .idx 0 emptyIndex)) db .filling := by
  apply perform_guarded Command.noConfusion
  rintro picture system sound same ⟨⟩ state _ performed
  cases performed
  have holds := sound.stages process
  rw [same] at holds
  rcases holds with ⟨locked, isPieces⟩
  refine ⟨some .fresh, .working fun _ => none, ?_, continued⟩
  have working : picture.stages process ≠ .closed := by
    rw [same]
    exact Stage.noConfusion
  refine sound.step working nofun ?_ sound.exclusive ?_ ?_ fun _ => trivial
  · rintro known ⟨⟩
    rw [setFile_same, sound.empty isPieces, Pieces.fresh_file]
    exact ⟨Pieces.fresh_wellFormed, pwrite_end [] emptyIndex⟩
  · exact ⟨_, rfl, nofun⟩
  · intro other different others
    rw [isPieces] at others
    have free := sound.exclusive process other different.symm .idx 0 (locked 0 (Nat.le_refl _))
    exact others.fill free

end Rules

end

end Apue.Database
