import Apue.Database.Headers

/-! # Handles and the header

Processes that open, use and close a database again and again. If the index file is
opened with care, whoever has a handle finds the header in it.
-/

namespace Apue.Database

open Apue.Foundation Ascii

section

variable {Process : Type} [DecidableEq Process]

/-- The steps of processes that open the index file with care. -/
def CarefulStep (process : Process) (command : SystemCommand) (before : System Process)
    (response : SystemResponse command) (after : System Process) : Prop :=
  OpensWell process command before ∧ System.Step process command before response after

variable (Process) in
def systemLogic : LocalLogic Process SystemCommand SystemResponse (System Process)
    (Picture Process) Stage where
  step := CarefulStep
  valid := Sound
  localOf := fun process picture => picture.stages process
  allowed := fun _ command _ => command ≠ .library (.exit .readptrRead)

abbrev SystemSafe {Result : Type} (process : Process) (post : Result → Stage → Prop)
    (program : SystemProgram Result) (here : Stage) : Prop :=
  (systemLogic Process).Safe process post program here

variable {process : Process} {here : Stage} {picture : Picture Process} {system : System Process}
  {flags : Flags}

/-! ## Parts of programs -/

section Parts

variable {Result Next : Type}

theorem system_bind {program : SystemProgram Result} {rest : Result → SystemProgram Next}
    {post : Next → Stage → Prop}
    (first : SystemSafe process (fun result there => SystemSafe process post (rest result) there)
      program here) : SystemSafe process post (program >>= rest) here :=
  LocalLogic.Safe.bind first

theorem system_request {command : SystemCommand} {post : SystemResponse command → Stage → Prop}
    (allowed : command ≠ .library (.exit .readptrRead))
    (moved : ∀ (picture : Picture Process) (system : System Process), Sound picture system →
      picture.stages process = here → ∀ response after,
      CarefulStep process command system response after →
        ∃ pieces there, Sound (picture.move pieces process there) after ∧ post response there) :
    SystemSafe process post (request command) here := by
  refine ⟨allowed, fun picture system sound same response after stepped => ?_⟩
  rcases moved picture system sound same response after stepped with ⟨pieces, there, sound', holds⟩
  have arrived : (systemLogic Process).localOf process (picture.move pieces process there) = there :=
    picture.move_same pieces process there
  refine ⟨picture.move pieces process there, sound', ?_, ?_⟩
  · exact fun other different => picture.move_other pieces there different
  · rw [arrived]
    exact holds

/-- A function of the library, which ends the process if one of its calls fails. -/
theorem system_library {program : Program Command Response Result} {post : Result → Stage → Prop}
    (safe : (libraryLogic Process).Safe process post program here) :
    SystemSafe process (fun result there => ∀ value, result = some value → post value there)
      (withFailures program) here := by
  induction program generalizing here with
  | done result =>
      rintro _ ⟨⟩
      exact safe
  | call command next hypothesis =>
      rw [withFailures]
      refine ⟨fun same => safe.1 (SystemCommand.library.inj same), ?_⟩
      rintro picture system sound same (_ | response) after ⟨_, stepped⟩
      · cases stepped
        refine ⟨picture, sound, fun _ _ => rfl, ?_⟩
        rintro _ ⟨⟩
      · rcases safe.2 picture system sound same response after stepped with
          ⟨picture', sound', keeps, continued⟩
        exact ⟨picture', sound', keeps, hypothesis response continued⟩

end Parts

/-! ## Closing -/

theorem Picture.move_here (picture : Picture Process) (process : Process) :
    picture.move picture.pieces process (picture.stages process) = picture := by
  rw [Picture.move, Function.update_eq_self]

theorem Sound.close (sound : Sound picture system) :
    Sound (picture.move picture.pieces process .closed) (system.closed process) where
  empty := sound.empty
  index := sound.index
  exclusive := by
    intro first second different file byte locked
    have other : first ≠ process := by
      rintro rfl
      change Function.update system.state.locks first _ first file byte = _ at locked
      rw [Function.update_self] at locked
      cases locked
    change Function.update system.state.locks process _ first file byte = _ at locked
    change Function.update system.state.locks process _ second file byte = _
    rw [Function.update_of_ne other] at locked
    by_cases same : second = process
    · rw [same, Function.update_self]
    · rw [Function.update_of_ne same]
      exact sound.exclusive first second different file byte locked
  stages := by
    intro other
    by_cases same : other = process
    · rw [same, Picture.move_same]
      trivial
    · rw [Picture.move_other _ _ _ same]
      change (picture.stages other).Holds picture.pieces
        (Function.update system.state.locks process _ other .idx)
      rw [Function.update_of_ne same]
      exact sound.stages other
  opened := by
    intro other isOpen
    by_cases same : other = process
    · rw [same, Picture.move_same] at isOpen
      exact absurd rfl isOpen
    · rw [Picture.move_other _ _ _ same] at isOpen
      change Function.update system.descriptors process _ other .idx ≠ none
      rw [Function.update_of_ne same]
      exact sound.opened other isOpen
  present := by
    intro other isOpen
    change Function.update system.descriptors process _ other .idx ≠ none at isOpen
    by_cases same : other = process
    · rw [same, Function.update_self] at isOpen
      exact absurd rfl isOpen
    · rw [Function.update_of_ne same] at isOpen
      exact sound.present other isOpen
  handles := by
    intro other holds
    change Function.update system.handles process false other = true at holds
    by_cases same : other = process
    · rw [same, Function.update_self] at holds
      cases holds
    · rw [Function.update_of_ne same] at holds
      rw [Picture.move_other _ _ _ same]
      exact sound.handles other holds

theorem system_close {post : Unit → Stage → Prop} (closed : post () .closed) :
    SystemSafe process post (request .closeFiles) here := by
  apply system_request SystemCommand.noConfusion
  rintro picture system sound _ ⟨⟩ after ⟨_, rfl⟩
  exact ⟨picture.pieces, .closed, sound.close, closed⟩

/-! ## Opening -/

omit [DecidableEq Process] in
theorem Sound.pieces_of_nonempty (sound : Sound picture system)
    (nonempty : system.state.files .idx ≠ []) : ∃ pieces, picture.pieces = some pieces := by
  rw [← Option.ne_none_iff_exists']
  exact fun none => nonempty (sound.empty none)

omit [DecidableEq Process] in
theorem Sound.pieces_of_empty (sound : Sound picture system)
    (empty : system.state.files .idx = []) : picture.pieces = none := by
  cases isPieces : picture.pieces with
  | none => rfl
  | some pieces =>
      rcases sound.index pieces isPieces with ⟨wellFormed, file, _⟩
      have header := wellFormed.header.length_le
      rw [← file, empty] at header
      exact absurd header (by decide)

/-- The index file is there after it was opened, and the process has it open. -/
theorem opened_descriptors (system : System Process) (process other : Process) (flags : Flags)
    (isOpen : other ≠ process → system.descriptors other .idx ≠ none) :
    (system.opened process .idx flags).descriptors other .idx ≠ none := by
  change Function.update system.descriptors process _ other .idx ≠ none
  by_cases same : other = process
  · rw [same, Function.update_self, Function.update_self]
    exact Option.some_ne_none _
  · rw [Function.update_of_ne same]
    exact isOpen same

theorem opened_there (system : System Process) (process : Process) (flags : Flags) :
    (system.opened process .idx flags).there .idx = true := by
  change Function.update system.there .idx true .idx = true
  rw [Function.update_self]

/-- The index file is emptied, and nobody has used what was in it. -/
theorem Sound.openEmptied (sound : Sound picture system) (closed : picture.stages process = .closed)
    (truncate : flags.truncate = true) (unused : system.state.files .idx = [] ∨
      ∀ other, other ≠ process → system.descriptors other .idx = none) :
    Sound (picture.move none process .opening) (system.opened process .idx flags) := by
  have emptied : (system.opened process .idx flags).state = setFile system.state .idx [] := by
    rw [System.opened, truncate, Bool.not_true, Bool.and_false]
    rfl
  have idle : ∀ other, other ≠ process →
      (picture.stages other).Holds none (system.state.locks other .idx) := by
    intro other different
    have holds := sound.stages other
    rcases unused with empty | alone
    · rwa [sound.pieces_of_empty empty] at holds
    · by_cases isClosed : picture.stages other = .closed
      · rw [isClosed]
        trivial
      · exact absurd (alone other different) (sound.opened other isClosed)
  constructor
  · intro _
    rw [emptied, setFile_same]
  · rintro pieces ⟨⟩
  · rw [emptied]
    exact sound.exclusive
  · intro other
    rw [emptied]
    by_cases same : other = process
    · rw [same, Picture.move_same]
      trivial
    · rw [Picture.move_other _ _ _ same]
      exact idle other same
  · intro other isOpen
    apply opened_descriptors
    intro different
    rw [Picture.move_other _ _ _ different] at isOpen
    exact sound.opened other isOpen
  · exact fun _ _ => opened_there system process flags
  · intro other holds
    have uses := sound.handles other holds
    by_cases same : other = process
    · rw [same, closed] at uses
      cases uses
    · rwa [Picture.move_other _ _ _ same]

/-- The index file is left as it is, and has its header. -/
theorem Sound.openKept (sound : Sound picture system) (closed : picture.stages process = .closed)
    (truncate : flags.truncate = false) (nonempty : system.state.files .idx ≠ []) :
    Sound (picture.move picture.pieces process (.working fun _ => none))
      (system.opened process .idx flags) := by
  rcases sound.pieces_of_nonempty nonempty with ⟨pieces, isPieces⟩
  have kept : (system.opened process .idx flags).state = system.state := by
    rw [System.opened, truncate, (sound.index pieces isPieces).2.2]
    rfl
  constructor
  · rw [kept]
    exact sound.empty
  · intro known isKnown
    rw [kept]
    exact ⟨(sound.index known isKnown).1, (sound.index known isKnown).2.1,
      opened_there system process flags⟩
  · rw [kept]
    exact sound.exclusive
  · intro other
    rw [kept]
    by_cases same : other = process
    · rw [same, Picture.move_same]
      exact ⟨pieces, isPieces, nofun⟩
    · rw [Picture.move_other _ _ _ same]
      exact sound.stages other
  · intro other isOpen
    apply opened_descriptors
    intro different
    rw [Picture.move_other _ _ _ different] at isOpen
    exact sound.opened other isOpen
  · exact fun _ _ => opened_there system process flags
  · intro other holds
    have uses := sound.handles other holds
    by_cases same : other = process
    · rw [same, closed] at uses
      cases uses
    · rwa [Picture.move_other _ _ _ same]

theorem system_openIndex {post : Bool → Stage → Prop} (failed : post false .closed)
    (emptied : flags.truncate = true → flags.create = true → post true .opening)
    (kept : flags.truncate = false → post true (.working fun _ => none)) :
    SystemSafe process post (request (.openFile .idx flags)) .closed := by
  apply system_request SystemCommand.noConfusion
  rintro picture system sound same (_ | _) after ⟨well, stepped⟩
  · cases stepped
    refine ⟨picture.pieces, .closed, ?_, failed⟩
    rw [← same, Picture.move_here]
    exact sound
  · rcases stepped with ⟨allowed, rfl⟩
    have opens := well allowed
    cases truncate : flags.truncate with
    | true =>
        rw [if_pos truncate] at opens
        exact ⟨none, .opening, sound.openEmptied same truncate opens.2, emptied truncate opens.1⟩
    | false =>
        rw [truncate, if_neg Bool.false_ne_true] at opens
        exact ⟨picture.pieces, _, sound.openKept same truncate opens, kept truncate⟩

/-- The data file has no part in this. -/
theorem Sound.openData (sound : Sound picture system) :
    Sound (picture.move picture.pieces process (picture.stages process))
      (system.opened process .dat flags) := by
  have files : (system.opened process .dat flags).state.files .idx = system.state.files .idx := by
    rw [System.opened]
    split
    · rfl
    · exact setFile_other _ _ (by decide)
  have locks : (system.opened process .dat flags).state.locks = system.state.locks := by
    rw [System.opened]
    split
    · rfl
    · rfl
  have there : (system.opened process .dat flags).there .idx = system.there .idx := by
    change Function.update system.there .dat true .idx = _
    rw [Function.update_of_ne (by decide)]
  have descriptors : ∀ other, (system.opened process .dat flags).descriptors other .idx =
      system.descriptors other .idx := by
    intro other
    change Function.update system.descriptors process _ other .idx = _
    by_cases same : other = process
    · rw [same, Function.update_self, Function.update_of_ne (by decide)]
    · rw [Function.update_of_ne same]
  rw [Picture.move_here]
  constructor
  · rw [files]
    exact sound.empty
  · rw [files, there]
    exact sound.index
  · rw [locks]
    exact sound.exclusive
  · rw [locks]
    exact sound.stages
  · intro other
    rw [descriptors]
    exact sound.opened other
  · intro other
    rw [descriptors, there]
    exact sound.present other
  · exact sound.handles

theorem system_openData {post : Bool → Stage → Prop} (continued : ∀ isOpen, post isOpen here) :
    SystemSafe process post (request (.openFile .dat flags)) here := by
  apply system_request SystemCommand.noConfusion
  rintro picture system sound rfl (_ | _) after ⟨_, stepped⟩
  · cases stepped
    refine ⟨picture.pieces, picture.stages process, ?_, continued _⟩
    rw [Picture.move_here]
    exact sound
  · rcases stepped with ⟨_, rfl⟩
    exact ⟨picture.pieces, picture.stages process, sound.openData, continued _⟩

theorem rewind_guarded {db : DB} {sizes : Sizes} :
    Guarded process Works dbRewind db (.working sizes) :=
  calm_dbRewind.guarded.mono fun _ _ same => ⟨sizes, same⟩

/-- An index file without contents is given its header. -/
theorem create_guarded : Guarded process Works (dbInitialise true true) dbAlloc .opening := by
  apply bind_guarded
  apply lockAll_guarded
  apply bind_guarded
  apply sizeAll_guarded
  · rw [if_pos rfl]
    apply bind_guarded
    apply bind_guarded
    apply get_guarded
    apply bind_guarded
    apply fill_guarded
    apply bind_guarded
    apply quiet_guarded (unlock_quiet _ _)
    exact fun _ => rewind_guarded
  · intro size nonempty
    rw [if_neg nonempty]
    apply bind_guarded
    apply quiet_guarded (unlock_quiet _ _)
    exact fun _ => rewind_guarded

theorem Sound.handle {sizes : Sizes} (sound : Sound picture system)
    (working : picture.stages process = .working sizes) :
    Sound (picture.move picture.pieces process (.working sizes))
      { system with handles := Function.update system.handles process true } := by
  rw [← working, Picture.move_here]
  refine { sound with handles := ?_ }
  intro other holds
  change Function.update system.handles process true other = true at holds
  by_cases same : other = process
  · rw [same, working]
    trivial
  · rw [Function.update_of_ne same] at holds
    exact sound.handles other holds

theorem system_handle {sizes : Sizes} {post : Unit → Stage → Prop}
    (continued : post () (.working sizes)) :
    SystemSafe process post (request .returnHandle) (.working sizes) := by
  apply system_request SystemCommand.noConfusion
  rintro picture system sound same ⟨⟩ after ⟨_, rfl⟩
  exact ⟨picture.pieces, .working sizes, sound.handle same, continued⟩

/-! ## Sessions -/

/-- The stage at which `db_open` returns. -/
def Opened.Returned (opened : Opened) (there : Stage) : Prop :=
  match opened with
  | .handle _ => ∃ sizes, there = .working sizes
  | .null => there = .closed
  | .ended => True

theorem system_refused {stage : Stage} :
    SystemSafe process Opened.Returned (request .closeFiles >>= fun _ => pure .null) stage := by
  apply system_bind
  exact system_close rfl

theorem system_initialised {flags : Flags} {stage : Stage}
    (guarded : Guarded process Works (dbInitialise flags.create flags.truncate) dbAlloc stage)
    (isOpen : Bool) :
    SystemSafe process Opened.Returned (if !true || !isOpen then do
        request .closeFiles
        return .null
      else do
        match ← withFailures (dbInitialise flags.create flags.truncate dbAlloc) with
        | none => return .ended
        | some (_, db) =>
            request .returnHandle
            return .handle db) stage := by
  cases isOpen with
  | false => exact system_refused
  | true =>
      apply system_bind
      apply (system_library guarded).mono
      rintro (_ | ⟨_, db⟩) there works
      · trivial
      · rcases works _ rfl with ⟨sizes, rfl⟩
        apply system_bind
        exact system_handle ⟨sizes, rfl⟩

theorem dbOpenFiles_safe (flags : Flags) :
    SystemSafe process Opened.Returned (dbOpenFiles flags) .closed := by
  apply system_bind
  apply system_openIndex
  · apply system_bind
    apply system_openData
    exact fun _ => system_refused
  · intro truncate create
    apply system_bind
    apply system_openData
    apply system_initialised
    rw [truncate, create]
    exact create_guarded
  · intro truncate
    apply system_bind
    apply system_openData
    apply system_initialised
    rw [truncate, dbInitialise, Bool.and_false]
    exact rewind_guarded

theorem session_safe (session : Session) :
    SystemSafe process (fun _ there => there = .closed) session.run .closed := by
  apply system_bind
  apply (dbOpenFiles_safe session.flags).mono
  rintro (db | _ | _) there returned
  · rcases returned with ⟨sizes, rfl⟩
    apply system_bind
    apply (system_library (useHandle_guarded session.calls)).mono
    intro result there _
    apply system_bind
    exact system_close rfl
  · exact returned
  · apply system_bind
    exact system_close rfl

theorem sessions_safe (sessions : List Session) :
    SystemSafe process (fun _ _ => True) (runSessions sessions) .closed := by
  induction sessions with
  | nil => trivial
  | cons session sessions hypothesis =>
      apply system_bind
      apply (session_safe session).mono
      rintro goesOn _ rfl
      cases goesOn with
      | true => exact hypothesis
      | false => trivial

/-! ## Every run -/

/-- The index file is not there, or it is empty, or it is that of a valid database. -/
def StartsWell (files : File → Option Bytes) : Prop :=
  ∀ idx, files .idx = some idx → idx = [] ∨ ∃ (layout : Layout) (dat : Bytes), layout.Describes idx dat

omit [DecidableEq Process] in
theorem sound_first {files : File → Option Bytes} {pieces : Option Pieces}
    (empty : pieces = none → (files .idx).getD [] = [])
    (index : ∀ known, pieces = some known → known.WellFormed ∧ files .idx = some known.file) :
    Sound ⟨pieces, fun _ => .closed⟩ (System.first files : System Process) where
  empty := empty
  index := by
    intro known isKnown
    rcases index known isKnown with ⟨wellFormed, file⟩
    refine ⟨wellFormed, ?_, ?_⟩
    · change (files .idx).getD [] = known.file
      rw [file, Option.getD_some]
    · change (files .idx).isSome = true
      rw [file, Option.isSome_some]
  exclusive := fun _ _ _ _ _ _ => rfl
  stages := fun _ => trivial
  opened := fun _ isOpen => absurd rfl isOpen
  present := fun _ isOpen => absurd rfl isOpen
  handles := fun _ holds => absurd holds Bool.false_ne_true

omit [DecidableEq Process] in
theorem exists_sound {files : File → Option Bytes} (starts : StartsWell files) :
    ∃ pieces, Sound ⟨pieces, fun _ => .closed⟩ (System.first files : System Process) := by
  cases there : files .idx with
  | none => exact ⟨none, sound_first (fun _ => by rw [there, Option.getD_none]) nofun⟩
  | some idx =>
      rcases starts idx there with rfl | ⟨layout, dat, describes⟩
      · exact ⟨none, sound_first (fun _ => by rw [there, Option.getD_some]) nofun⟩
      · rcases describes.isIndex with ⟨pieces, wellFormed, rfl⟩
        refine ⟨some pieces, sound_first nofun ?_⟩
        rintro known ⟨⟩
        exact ⟨wellFormed, there⟩

/-- In runs in which the index file is opened with care, whoever has a handle finds the header,
and no call comes to a pointer field that is not there. -/
theorem handles_find_header {scripts : Process → List Session} {files : File → Option Bytes}
    (starts : StartsWell files) {openers : Openers Process}
    (reached : Pool.Reachable CarefulStep (startSessions scripts files) openers)
    (process : Process) :
    (openers.state.handles process = true → HasHeader (openers.state.state.files .idx)) ∧
    ∀ next, openers.programs process ≠ .call (.library (.exit .readptrRead)) next := by
  rcases @exists_sound Process files starts with ⟨pieces, sound⟩
  have start : (systemLogic Process).PoolSafe (fun _ _ _ => True) (startSessions scripts files) :=
    ⟨⟨pieces, fun _ => .closed⟩, sound, fun process => sessions_safe (scripts process)⟩
  rcases start.reachable reached with ⟨picture, sound', safe⟩
  constructor
  · intro holds
    have uses := sound'.handles process holds
    have known := sound'.stages process
    have found : ∃ pieces, picture.pieces = some pieces := by
      cases stage : picture.stages process with
      | working sizes =>
          rw [stage] at known
          exact known.imp fun _ facts => facts.1
      | appending sizes length =>
          rw [stage] at known
          exact known.imp fun _ facts => facts.1
      | _ =>
          rw [stage] at uses
          cases uses
    rcases found with ⟨there, isPieces⟩
    rcases sound'.index there isPieces with ⟨wellFormed, file, _⟩
    rw [file]
    exact wellFormed.header
  · intro next isExit
    have mine := safe process
    rw [isExit] at mine
    exact mine.1 rfl

theorem careful_open (openers : Openers Process) (process : Process) {file : File} {flags : Flags}
    {next : Bool → SystemProgram Unit}
    (waiting : openers.programs process = .call (.openFile file flags) next)
    (well : OpensWell process (.openFile file flags) openers.state)
    (allowed : openers.state.there file = true ∨ flags.create = true) :
    Pool.Step CarefulStep openers ⟨Function.update openers.programs process (next true),
      openers.state.opened process file flags⟩ :=
  .take process waiting ⟨well, allowed, rfl⟩

theorem careful_handle (openers : Openers Process) (process : Process)
    {next : Unit → SystemProgram Unit}
    (waiting : openers.programs process = .call .returnHandle next) :
    Pool.Step CarefulStep openers ⟨Function.update openers.programs process (next ()),
      { openers.state with
        handles := Function.update openers.state.handles process true }⟩ :=
  .take process waiting ⟨trivial, rfl⟩

end

theorem emptyIndex_describes : ∃ layout : Layout, layout.Describes emptyIndex [] := by
  have resting : (newGhost : Ghost Unit).Resting := fun process => ⟨.idle, newGhost_localOf process⟩
  exact newGhost_valid.layout resting

/-- The files of a new database. -/
def newFiles : File → Option Bytes
  | .idx => some emptyIndex
  | .dat => some []

def openNew (_ : Unit) : List Session :=
  [{ flags := { readWrite := true, create := false, truncate := false }
     calls := [] }]

theorem newFiles_startWell : StartsWell newFiles := by
  rintro idx ⟨⟩
  rcases emptyIndex_describes with ⟨layout, describes⟩
  exact Or.inr ⟨layout, [], describes⟩

theorem handles_find_header_new : ∃ openers : Openers Unit,
    Pool.Reachable CarefulStep (startSessions openNew newFiles) openers ∧
      openers.state.handles () = true ∧ HasHeader (openers.state.state.files .idx) := by
  have nonempty : emptyIndex ≠ [] := List.append_ne_nil_of_right_ne_nil _ (List.cons_ne_nil _ _)
  have idx : Pool.Reachable CarefulStep (startSessions openNew newFiles) _ :=
    .tail .refl (careful_open _ () rfl (fun _ => nonempty) (Or.inl rfl))
  have dat := idx.tail (careful_open _ () rfl trivial (Or.inl rfl))
  have handle := dat.tail (careful_handle _ () rfl)
  exact ⟨_, handle, rfl, (handles_find_header newFiles_startWell handle ()).1 rfl⟩

end Apue.Database
