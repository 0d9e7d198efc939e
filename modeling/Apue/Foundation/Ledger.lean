import Mathlib.Logic.Function.Basic

/-! # Cells that belong to locks and threads

A ledger says for every cell of a shared memory what it holds and who owns it:
a lock, or a thread. A thread works with what it owns itself and with what the
locks own that it holds; it writes only under an exclusive hold. A lock that
nobody holds exclusively keeps an invariant of what it owns.
-/

namespace Apue.Foundation

inductive Mode
  | shared
  | exclusive
  deriving DecidableEq

inductive Owner (Thread Name : Type)
  | lock (name : Name)
  | thread (thread : Thread)
  deriving DecidableEq

/-- The owners that a thread has to do with: a lock, or the thread itself. -/
inductive Share (Name : Type)
  | own
  | lock (name : Name)
  deriving DecidableEq

def Share.owner {Thread Name : Type} (thread : Thread) : Share Name → Owner Thread Name
  | .own => .thread thread
  | .lock name => .lock name

theorem Share.owner_ne {Thread Name : Type} {thread : Thread} {left right : Share Name}
    (different : left ≠ right) : left.owner thread ≠ right.owner thread := by
  intro same
  cases left <;> cases right <;> cases same <;> exact different rfl

/-- The cells of one owner, with what they hold. -/
abbrev Fragment {Cell : Type} (Value : Cell → Type) : Type :=
  (cell : Cell) → Option (Value cell)

namespace Fragment

variable {Cell : Type} {Value : Cell → Type}

def empty : Fragment Value := fun _ => none

def without (fragment : Fragment Value) (moved : Cell → Bool) : Fragment Value :=
  fun cell => if moved cell then none else fragment cell

/-- `fragment` with the cells that `moved` chooses from `source`. -/
def gain (fragment source : Fragment Value) (moved : Cell → Bool) : Fragment Value :=
  fun cell => if moved cell then (source cell).or (fragment cell) else fragment cell

/-- Write one cell. -/
def put [DecidableEq Cell] (fragment : Fragment Value) (cell : Cell) (value : Value cell) :
    Fragment Value :=
  Function.update fragment cell (some value)

@[simp] theorem put_same [DecidableEq Cell] (fragment : Fragment Value) (cell : Cell)
    (value : Value cell) : fragment.put cell value cell = some value :=
  Function.update_self _ _ _

theorem put_of_ne [DecidableEq Cell] (fragment : Fragment Value) {cell other : Cell}
    (value : Value cell) (different : other ≠ cell) :
    fragment.put cell value other = fragment other :=
  Function.update_of_ne different _ _

end Fragment

structure Ledger (Thread Name : Type) {Cell : Type} (Value : Cell → Type) where
  contents : (cell : Cell) → Option (Owner Thread Name × Value cell)
  held : Thread → Name → Option Mode

/-- What one thread sees of a ledger. -/
@[ext]
structure Holdings (Name : Type) {Cell : Type} (Value : Cell → Type) where
  held : Name → Option Mode
  parts : Share Name → Fragment Value

section

variable {Thread Name Cell : Type} {Value : Cell → Type}
  [DecidableEq Thread] [DecidableEq Name]

namespace Holdings

def writable (holdings : Holdings Name Value) : Share Name → Prop
  | .own => True
  | .lock name => holdings.held name = some .exclusive

def setPart (holdings : Holdings Name Value) (share : Share Name)
    (fragment : Fragment Value) : Holdings Name Value :=
  { holdings with parts := Function.update holdings.parts share fragment }

def acquire (holdings : Holdings Name Value) (name : Name) (mode : Mode)
    (fragment : Fragment Value) : Holdings Name Value where
  held := Function.update holdings.held name (some mode)
  parts := Function.update holdings.parts (.lock name) fragment

def release (holdings : Holdings Name Value) (name : Name) : Holdings Name Value where
  held := Function.update holdings.held name none
  parts := Function.update holdings.parts (.lock name) .empty

@[simp] theorem setPart_parts_same (holdings : Holdings Name Value) (share : Share Name)
    (fragment : Fragment Value) : (holdings.setPart share fragment).parts share = fragment :=
  Function.update_self _ _ _

theorem setPart_parts_of_ne (holdings : Holdings Name Value)
    {share other : Share Name} (different : other ≠ share) (fragment : Fragment Value) :
    (holdings.setPart share fragment).parts other = holdings.parts other :=
  Function.update_of_ne different _ _

@[simp] theorem acquire_held_same (holdings : Holdings Name Value) (name : Name)
    (mode : Mode) (fragment : Fragment Value) :
    (holdings.acquire name mode fragment).held name = some mode :=
  Function.update_self _ _ _

theorem acquire_held_of_ne (holdings : Holdings Name Value) {name other : Name}
    (different : other ≠ name) (mode : Mode) (fragment : Fragment Value) :
    (holdings.acquire name mode fragment).held other = holdings.held other :=
  Function.update_of_ne different _ _

@[simp] theorem acquire_parts_same (holdings : Holdings Name Value) (name : Name)
    (mode : Mode) (fragment : Fragment Value) :
    (holdings.acquire name mode fragment).parts (.lock name) = fragment :=
  Function.update_self _ _ _

theorem acquire_parts_of_ne (holdings : Holdings Name Value) {name : Name}
    {share : Share Name} (different : share ≠ .lock name) (mode : Mode)
    (fragment : Fragment Value) :
    (holdings.acquire name mode fragment).parts share = holdings.parts share :=
  Function.update_of_ne different _ _

theorem release_parts_same (holdings : Holdings Name Value) (name : Name) :
    (holdings.release name).parts (.lock name) = .empty :=
  Function.update_self _ _ _

theorem release_parts_of_ne (holdings : Holdings Name Value) {name : Name}
    {share : Share Name} (different : share ≠ .lock name) :
    (holdings.release name).parts share = holdings.parts share :=
  Function.update_of_ne different _ _

/-- Write one cell of a part. -/
def put [DecidableEq Cell] (holdings : Holdings Name Value) (share : Share Name)
    (cell : Cell) (value : Value cell) : Holdings Name Value :=
  holdings.setPart share ((holdings.parts share).put cell value)

theorem put_writable [DecidableEq Cell] {holdings : Holdings Name Value}
    {share other : Share Name} {cell : Cell} {value : Value cell} :
    (holdings.put share cell value).writable other ↔ holdings.writable other := by
  cases other <;> exact Iff.rfl

theorem put_parts_of_ne [DecidableEq Cell] (holdings : Holdings Name Value)
    {share other : Share Name} (different : other ≠ share) (cell : Cell)
    (value : Value cell) : (holdings.put share cell value).parts other = holdings.parts other :=
  Function.update_of_ne different _ _

theorem put_parts_same [DecidableEq Cell] (holdings : Holdings Name Value)
    (share : Share Name) (cell : Cell) (value : Value cell) :
    (holdings.put share cell value).parts share = (holdings.parts share).put cell value :=
  Function.update_self _ _ _

/-! ### Holdings in the order in which the locks were taken -/

/-- A thread that holds no lock. -/
def only (fragment : Fragment Value) : Holdings Name Value where
  held := fun _ => none
  parts
    | .own => fragment
    | .lock _ => .empty

@[simp] theorem only_setPart (first second : Fragment Value) :
    (only first : Holdings Name Value).setPart .own second = only second := by
  apply Holdings.ext
  · rfl
  · funext share
    cases share with
    | own => exact setPart_parts_same _ _ _
    | lock name =>
        have apart : Share.lock name ≠ Share.own := by simp
        exact setPart_parts_of_ne _ apart _

theorem acquire_setPart_same (holdings : Holdings Name Value) (name : Name) (mode : Mode)
    (first second : Fragment Value) :
    (holdings.acquire name mode first).setPart (.lock name) second =
      holdings.acquire name mode second := by
  simp only [acquire, setPart, Function.update_idem]

theorem acquire_setPart_of_ne (holdings : Holdings Name Value) {name : Name}
    {share : Share Name} (different : share ≠ .lock name) (mode : Mode)
    (first second : Fragment Value) :
    (holdings.acquire name mode first).setPart share second =
      (holdings.setPart share second).acquire name mode first := by
  simp only [acquire, setPart]
  rw [Function.update_comm different.symm]

theorem acquire_put_same [DecidableEq Cell] (holdings : Holdings Name Value) (name : Name)
    (mode : Mode) (fragment : Fragment Value) (cell : Cell) (value : Value cell) :
    (holdings.acquire name mode fragment).put (.lock name) cell value =
      holdings.acquire name mode (fragment.put cell value) := by
  rw [put, acquire_parts_same, acquire_setPart_same]

theorem acquire_put_of_ne [DecidableEq Cell] (holdings : Holdings Name Value) {name : Name}
    {share : Share Name} (different : share ≠ .lock name) (mode : Mode)
    (fragment : Fragment Value) (cell : Cell) (value : Value cell) :
    (holdings.acquire name mode fragment).put share cell value =
      (holdings.put share cell value).acquire name mode fragment := by
  rw [put, acquire_parts_of_ne _ different, acquire_setPart_of_ne _ different, put]

/-- A lock that is given up leaves what there was before it was taken. -/
theorem acquire_release {holdings : Holdings Name Value} {name : Name}
    (free : holdings.held name = none) (empty : holdings.parts (.lock name) = .empty)
    (mode : Mode) (fragment : Fragment Value) :
    (holdings.acquire name mode fragment).release name = holdings := by
  apply Holdings.ext
  · simp only [acquire, release, Function.update_idem]
    exact Function.update_eq_self_iff.mpr free.symm
  · simp only [acquire, release, Function.update_idem]
    exact Function.update_eq_self_iff.mpr empty.symm

end Holdings

namespace Ledger

variable (ledger : Ledger Thread Name Value) (thread : Thread)

/-- What the cells hold, whoever owns them. -/
def values : Fragment Value := fun cell => (ledger.contents cell).map Prod.snd

def part (owner : Owner Thread Name) : Fragment Value :=
  fun cell => (ledger.contents cell).bind fun entry =>
    if entry.1 = owner then some entry.2 else none

def localOf : Holdings Name Value where
  held := ledger.held thread
  parts
    | .own => ledger.part (.thread thread)
    | .lock name =>
        if (ledger.held thread name).isSome then ledger.part (.lock name) else .empty

/-- Exclusive holds exclude every other hold, and the locks that nobody holds
exclusively keep their invariants. -/
structure Consistent (inv : Name → Fragment Value → Prop) : Prop where
  exclusive : ∀ thread other name, ledger.held thread name = some .exclusive →
    ledger.held other name ≠ none → other = thread
  unlocked : ∀ name, (∀ thread, ledger.held thread name ≠ some .exclusive) →
    inv name (ledger.part (.lock name))

variable {ledger thread}

theorem part_eq_some {owner : Owner Thread Name} {cell : Cell} {value : Value cell} :
    ledger.part owner cell = some value ↔ ledger.contents cell = some (owner, value) := by
  rw [part, Option.bind_eq_some_iff]
  constructor
  · rintro ⟨⟨found, stored⟩, contents, chosen⟩
    rw [Option.ite_none_right_eq_some] at chosen
    rcases chosen with ⟨rfl, equal⟩
    cases equal
    exact contents
  · intro contents
    exact ⟨_, contents, if_pos rfl⟩

theorem localOf_part_lock {name : Name} (holds : ledger.held thread name ≠ none) :
    (ledger.localOf thread).parts (.lock name) = ledger.part (.lock name) :=
  if_pos (Option.isSome_iff_ne_none.mpr holds)

theorem localOf_part_of_writable {share : Share Name}
    (writable : (ledger.localOf thread).writable share) :
    (ledger.localOf thread).parts share = ledger.part (share.owner thread) := by
  cases share with
  | own => rfl
  | lock name =>
      apply localOf_part_lock
      intro free
      exact absurd (free.symm.trans writable) (by simp)

theorem localOf_lock_congr {other : Ledger Thread Name Value} {name : Name}
    (held : other.held thread name = ledger.held thread name)
    (part : other.part (.lock name) = ledger.part (.lock name)) :
    (other.localOf thread).parts (.lock name) = (ledger.localOf thread).parts (.lock name) := by
  simp only [localOf, held, part]

theorem localOf_part_congr {other : Ledger Thread Name Value} {share : Share Name}
    (held : other.held thread = ledger.held thread)
    (part : other.part (share.owner thread) = ledger.part (share.owner thread)) :
    (other.localOf thread).parts share = (ledger.localOf thread).parts share := by
  cases share with
  | own => exact part
  | lock name => exact localOf_lock_congr (congrFun held name) part

theorem contents_of_localOf {share : Share Name} {cell : Cell} {value : Value cell}
    (known : (ledger.localOf thread).parts share cell = some value) :
    ledger.contents cell = some (share.owner thread, value) := by
  cases share with
  | own => exact part_eq_some.mp known
  | lock name =>
      by_cases free : ledger.held thread name = none
      · simp [localOf, free, Fragment.empty] at known
      · rw [localOf_part_lock free] at known
        exact part_eq_some.mp known

/-! ## Changes that a thread makes -/

/-- `after` differs from the ledger only in what `thread` may write. -/
structure ChangedBy (thread : Thread) (before after : Ledger Thread Name Value) :
    Prop where
  held : after.held = before.held
  parts : ∀ owner, (∀ share, (before.localOf thread).writable share →
    owner ≠ share.owner thread) → after.part owner = before.part owner

variable {after : Ledger Thread Name Value} {inv : Name → Fragment Value → Prop}

theorem ChangedBy.localOf_other (changed : ChangedBy thread ledger after)
    (consistent : ledger.Consistent inv) {other : Thread} (different : other ≠ thread) :
    after.localOf other = ledger.localOf other := by
  apply Holdings.ext
  · exact congrFun changed.held other
  · funext share
    cases share with
    | own =>
        apply changed.parts
        intro share _ same
        cases share with
        | own => exact different (Owner.thread.inj same)
        | lock name => cases same
    | lock name =>
        simp only [localOf, changed.held]
        split
        · rename_i holds
          apply changed.parts
          intro share writable same
          cases share with
          | own => cases same
          | lock name =>
              cases same
              exact different (consistent.exclusive thread other name writable
                (Option.isSome_iff_ne_none.mp holds))
        · rfl

theorem ChangedBy.consistent (changed : ChangedBy thread ledger after)
    (consistent : ledger.Consistent inv) : after.Consistent inv where
  exclusive := by
    rw [changed.held]
    exact consistent.exclusive
  unlocked := by
    intro name free
    rw [changed.held] at free
    rw [changed.parts]
    · exact consistent.unlocked name free
    · intro share writable same
      cases share with
      | own => cases same
      | lock other =>
          cases same
          exact free thread writable

theorem ChangedBy.trans {last : Ledger Thread Name Value}
    (first : ChangedBy thread ledger after) (second : ChangedBy thread after last) :
    ChangedBy thread ledger last where
  held := second.held.trans first.held
  parts := by
    intro owner foreign
    rw [second.parts owner, first.parts owner foreign]
    intro share writable
    apply foreign share
    cases share with
    | own => trivial
    | lock name =>
        exact (congrFun (congrFun first.held thread) name).symm.trans writable

/-! ## Writing a cell -/

section Put

variable [DecidableEq Cell]

def put (ledger : Ledger Thread Name Value) (thread : Thread) (share : Share Name)
    (cell : Cell) (value : Value cell) : Ledger Thread Name Value :=
  { ledger with
    contents := Function.update ledger.contents cell (some (share.owner thread, value)) }

omit [DecidableEq Thread] [DecidableEq Name] in
theorem put_values (share : Share Name) (cell : Cell) (value : Value cell) :
    (ledger.put thread share cell value).values = ledger.values.put cell value := by
  funext other
  by_cases same : other = cell
  · subst same
    simp [values, put]
  · simp [values, put, same, Fragment.put_of_ne]

theorem put_part_same (share : Share Name) (cell : Cell) (value : Value cell) :
    (ledger.put thread share cell value).part (share.owner thread) =
      (ledger.part (share.owner thread)).put cell value := by
  funext other
  by_cases same : other = cell
  · subst same
    simp [part, put]
  · simp [part, put, same, Fragment.put_of_ne]

theorem put_part_other {share : Share Name} {cell : Cell} {value : Value cell}
    (mine : ledger.contents cell = none ∨ ledger.part (share.owner thread) cell ≠ none)
    {owner : Owner Thread Name} (different : owner ≠ share.owner thread) :
    (ledger.put thread share cell value).part owner = ledger.part owner := by
  funext other
  by_cases same : other = cell
  · subst same
    rcases mine with fresh | owned
    · simp [part, put, fresh, different.symm]
    · rcases Option.ne_none_iff_exists'.mp owned with ⟨stored, found⟩
      simp [part, put, part_eq_some.mp found, different.symm]
  · simp [part, put, same]

/-- A thread may write a cell of a part that is its to write, and make a new
cell there. -/
theorem put_changedBy {share : Share Name} {cell : Cell} (value : Value cell)
    (writable : (ledger.localOf thread).writable share)
    (mine : ledger.contents cell = none ∨ ledger.part (share.owner thread) cell ≠ none) :
    ChangedBy thread ledger (ledger.put thread share cell value) where
  held := rfl
  parts := fun _ foreign => put_part_other mine (foreign share writable)

theorem put_localOf {share : Share Name} {cell : Cell} (value : Value cell)
    (writable : (ledger.localOf thread).writable share)
    (mine : ledger.contents cell = none ∨ ledger.part (share.owner thread) cell ≠ none) :
    (ledger.put thread share cell value).localOf thread =
      (ledger.localOf thread).put share cell value := by
  rw [Holdings.put]
  apply Holdings.ext
  · rfl
  · funext other
    by_cases same : other = share
    · subst same
      rw [Holdings.setPart_parts_same, localOf_part_of_writable writable, ← put_part_same]
      apply localOf_part_of_writable
      exact writable
    · rw [Holdings.setPart_parts_of_ne _ same]
      exact localOf_part_congr rfl (put_part_other mine (Share.owner_ne same))

/-- A thread writes a cell of one of its parts, or makes a new cell there. -/
theorem write_cell {here : Holdings Name Value} (share : Share Name) (cell : Cell)
    (value : Value cell) (same : ledger.localOf thread = here) (writable : here.writable share)
    (mine : ledger.contents cell = none ∨ here.parts share cell ≠ none) :
    ∃ after : Ledger Thread Name Value, ChangedBy thread ledger after ∧
      after.values = ledger.values.put cell value ∧
      after.localOf thread = here.put share cell value ∧
      ∀ other, other ≠ cell → after.contents other = ledger.contents other := by
  subst same
  have mine : ledger.contents cell = none ∨ ledger.part (share.owner thread) cell ≠ none := by
    rwa [localOf_part_of_writable writable] at mine
  exact ⟨ledger.put thread share cell value, put_changedBy value writable mine,
    put_values share cell value, put_localOf value writable mine,
    fun _ different => Function.update_of_ne different _ _⟩

end Put

/-! ## Handing cells over -/

/-- The cells that `moved` chooses of one part go to another. -/
def transfer (ledger : Ledger Thread Name Value) (thread : Thread)
    (source target : Share Name) (moved : Cell → Bool) : Ledger Thread Name Value :=
  { ledger with
    contents := fun cell => (ledger.contents cell).map fun entry =>
      if moved cell ∧ entry.1 = source.owner thread then (target.owner thread, entry.2)
      else entry }

section Transfer

variable {source target : Share Name} {moved : Cell → Bool}

theorem transfer_values :
    (ledger.transfer thread source target moved).values = ledger.values := by
  funext cell
  cases found : ledger.contents cell with
  | none => simp [values, transfer, found]
  | some entry =>
      simp only [values, transfer, found, Option.map_some, Option.some.injEq]
      split <;> rfl

theorem transfer_part_source (different : source ≠ target) :
    (ledger.transfer thread source target moved).part (source.owner thread) =
      (ledger.part (source.owner thread)).without moved := by
  have apart : target.owner thread ≠ source.owner thread :=
    Share.owner_ne (Ne.symm different)
  funext cell
  cases found : ledger.contents cell with
  | none => simp [part, transfer, found, Fragment.without]
  | some entry =>
      rcases entry with ⟨owner, value⟩
      by_cases chosen : moved cell = true
      · by_cases same : owner = source.owner thread
        · simp [part, transfer, found, Fragment.without, chosen, same, apart]
        · simp [part, transfer, found, Fragment.without, chosen, same]
      · simp [part, transfer, found, Fragment.without, chosen]

theorem transfer_part_target (different : source ≠ target) :
    (ledger.transfer thread source target moved).part (target.owner thread) =
      (ledger.part (target.owner thread)).gain (ledger.part (source.owner thread)) moved := by
  have apart : target.owner thread ≠ source.owner thread :=
    Share.owner_ne (Ne.symm different)
  funext cell
  cases found : ledger.contents cell with
  | none => simp [part, transfer, found, Fragment.gain]
  | some entry =>
      rcases entry with ⟨owner, value⟩
      by_cases chosen : moved cell = true
      · by_cases same : owner = source.owner thread
        · simp [part, transfer, found, Fragment.gain, chosen, same]
        · simp [part, transfer, found, Fragment.gain, chosen, same]
      · simp [part, transfer, found, Fragment.gain, chosen]

theorem transfer_part_other {owner : Owner Thread Name}
    (notSource : owner ≠ source.owner thread) (notTarget : owner ≠ target.owner thread) :
    (ledger.transfer thread source target moved).part owner = ledger.part owner := by
  funext cell
  cases found : ledger.contents cell with
  | none => simp [part, transfer, found]
  | some entry =>
      rcases entry with ⟨before, value⟩
      by_cases chosen : moved cell = true ∧ before = source.owner thread
      · simp [part, transfer, found, chosen, notSource.symm, notTarget.symm]
      · simp [part, transfer, found, chosen]

theorem transfer_changedBy (fromSource : (ledger.localOf thread).writable source)
    (toTarget : (ledger.localOf thread).writable target) :
    ChangedBy thread ledger (ledger.transfer thread source target moved) where
  held := rfl
  parts := fun _ foreign =>
    transfer_part_other (foreign source fromSource) (foreign target toTarget)

theorem transfer_localOf (fromSource : (ledger.localOf thread).writable source)
    (toTarget : (ledger.localOf thread).writable target) (different : source ≠ target) :
    (ledger.transfer thread source target moved).localOf thread =
      ((ledger.localOf thread).setPart source
        (((ledger.localOf thread).parts source).without moved)).setPart target
          (((ledger.localOf thread).parts target).gain
            ((ledger.localOf thread).parts source) moved) := by
  apply Holdings.ext
  · rfl
  · funext share
    by_cases isTarget : share = target
    · subst isTarget
      rw [Holdings.setPart_parts_same, localOf_part_of_writable toTarget,
        localOf_part_of_writable fromSource, ← transfer_part_target different]
      apply localOf_part_of_writable
      exact toTarget
    · rw [Holdings.setPart_parts_of_ne _ isTarget]
      by_cases isSource : share = source
      · subst isSource
        rw [Holdings.setPart_parts_same, localOf_part_of_writable fromSource,
          ← transfer_part_source different]
        apply localOf_part_of_writable
        exact fromSource
      · rw [Holdings.setPart_parts_of_ne _ isSource]
        exact localOf_part_congr rfl
          (transfer_part_other (Share.owner_ne isSource) (Share.owner_ne isTarget))

end Transfer

/-! ## Taking and giving up locks -/

def hold (ledger : Ledger Thread Name Value) (thread : Thread) (name : Name)
    (mode : Option Mode) : Ledger Thread Name Value :=
  { ledger with
    held := Function.update ledger.held thread
      (Function.update (ledger.held thread) name mode) }

section Hold

variable {name : Name} {mode : Mode}

theorem hold_held_same (mode : Option Mode) :
    (ledger.hold thread name mode).held thread =
      Function.update (ledger.held thread) name mode :=
  Function.update_self _ _ _

theorem hold_held_other (mode : Option Mode) {other : Thread} (different : other ≠ thread) :
    (ledger.hold thread name mode).held other = ledger.held other :=
  Function.update_of_ne different _ _

theorem hold_localOf_other (mode : Option Mode) {other : Thread}
    (different : other ≠ thread) :
    (ledger.hold thread name mode).localOf other = ledger.localOf other := by
  have held : (ledger.hold thread name mode).held other = ledger.held other :=
    hold_held_other mode different
  apply Holdings.ext
  · exact held
  · funext share
    exact localOf_part_congr held rfl

/-- A lock is granted when the holds of the other threads allow it. -/
theorem hold_consistent (consistent : ledger.Consistent inv)
    (granted : ∀ other, other ≠ thread → ledger.held other name ≠ some .exclusive ∧
      (mode = .exclusive → ledger.held other name = none))
    (mine : ledger.held thread name = none) :
    (ledger.hold thread name (some mode)).Consistent inv where
  exclusive := by
    intro holder other chosen exclusive holds
    by_cases isThread : holder = thread
    · subst isThread
      rw [hold_held_same] at exclusive
      by_contra different
      rw [hold_held_other _ different] at holds
      by_cases same : chosen = name
      · subst same
        rw [Function.update_self] at exclusive
        exact holds ((granted other different).2 (Option.some.inj exclusive))
      · rw [Function.update_of_ne same] at exclusive
        exact different (consistent.exclusive holder other chosen exclusive holds)
    · rw [hold_held_other _ isThread] at exclusive
      by_cases otherIsThread : other = thread
      · subst otherIsThread
        rw [hold_held_same] at holds
        by_cases same : chosen = name
        · subst same
          exact absurd exclusive (granted holder isThread).1
        · rw [Function.update_of_ne same] at holds
          exact consistent.exclusive holder other chosen exclusive holds
      · rw [hold_held_other _ otherIsThread] at holds
        exact consistent.exclusive holder other chosen exclusive holds
  unlocked := by
    intro chosen free
    apply consistent.unlocked
    intro holder exclusive
    by_cases isThread : holder = thread
    · subst isThread
      by_cases same : chosen = name
      · subst same
        exact absurd (mine.symm.trans exclusive) (by simp)
      · apply free holder
        rw [hold_held_same, Function.update_of_ne same, exclusive]
    · apply free holder
      rw [hold_held_other _ isThread, exclusive]

theorem hold_localOf :
    (ledger.hold thread name (some mode)).localOf thread =
      (ledger.localOf thread).acquire name mode (ledger.part (.lock name)) := by
  apply Holdings.ext
  · exact hold_held_same _
  · funext share
    by_cases same : share = .lock name
    · subst same
      rw [Holdings.acquire_parts_same]
      apply localOf_part_lock
      rw [hold_held_same, Function.update_self]
      exact Option.some_ne_none _
    · rw [Holdings.acquire_parts_of_ne _ same]
      cases share with
      | own => rfl
      | lock other =>
          apply localOf_lock_congr
          · rw [hold_held_same, Function.update_of_ne]
            intro equal
            exact same (congrArg Share.lock equal)
          · rfl

/-- A lock may be given up when its invariant holds of what it owns. -/
theorem unhold_consistent (consistent : ledger.Consistent inv)
    (kept : inv name (ledger.part (.lock name))) :
    (ledger.hold thread name none).Consistent inv where
  exclusive := by
    have fewer : ∀ holder chosen mode,
        (ledger.hold thread name none).held holder chosen = some mode →
          ledger.held holder chosen = some mode := by
      intro holder chosen mode holds
      by_cases isThread : holder = thread
      · subst isThread
        rw [hold_held_same] at holds
        by_cases same : chosen = name
        · subst same
          rw [Function.update_self] at holds
          cases holds
        · rwa [Function.update_of_ne same] at holds
      · rwa [hold_held_other _ isThread] at holds
    intro holder other chosen exclusive holds
    rcases Option.ne_none_iff_exists'.mp holds with ⟨mode, holds⟩
    exact consistent.exclusive holder other chosen (fewer _ _ _ exclusive)
      (by rw [fewer _ _ _ holds]; exact Option.some_ne_none _)
  unlocked := by
    intro chosen free
    by_cases same : chosen = name
    · subst same
      exact kept
    · apply consistent.unlocked
      intro holder exclusive
      apply free holder
      by_cases isThread : holder = thread
      · subst isThread
        rw [hold_held_same, Function.update_of_ne same, exclusive]
      · rw [hold_held_other _ isThread, exclusive]

theorem unhold_localOf :
    (ledger.hold thread name none).localOf thread =
      (ledger.localOf thread).release name := by
  apply Holdings.ext
  · exact hold_held_same _
  · funext share
    by_cases same : share = .lock name
    · subst same
      rw [Holdings.release_parts_same]
      simp only [localOf, hold_held_same, Function.update_self, Option.isSome_none,
        Bool.false_eq_true, if_false]
    · rw [Holdings.release_parts_of_ne _ same]
      cases share with
      | own => rfl
      | lock other =>
          apply localOf_lock_congr
          · rw [hold_held_same, Function.update_of_ne]
            intro equal
            exact same (congrArg Share.lock equal)
          · rfl

end Hold

end Ledger

end

end Apue.Foundation
