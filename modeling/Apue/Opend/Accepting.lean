import Apue.Foundation.Buffers

/-! # Accepting a client

`serv_accept` of `lib/servaccept.c`. It takes the user ID of the client from the owner of
the pathname to which the client has bound its socket.
-/

namespace Apue.Opend.Accepting

open Apue.Foundation Ascii

abbrev Errno := Int

def ENOENT : Errno := 2

def STALE : Int := 30

def S_IFMT : Nat := 0o170000

def S_IFSOCK : Nat := 0o140000

def S_IRWXU : Nat := 0o700

def S_IRWXG : Nat := 0o070

def S_IRWXO : Nat := 0o007

def S_ISSOCK (mode : Nat) : Bool := mode &&& S_IFMT == S_IFSOCK

/-- `sizeof(un.sun_path + 1)`: the operand is a pointer. -/
def nameSize : Nat := 8

/-- `sizeof(un.sun_path)`. -/
def pathSize : Nat := 108

structure Stat where
  mode : Nat
  uid : Nat
  atime : Int
  ctime : Int
  mtime : Int

/-- What `accept` stores in `un` and `len`. The length counts the bytes in front of the
pathname too, and can be larger than the structure is. -/
structure Address where
  len : UInt32
  sunPath : Bytes
  whole : sunPath.length = pathSize

/-- What the calls give, or the error numbers with which they fail. `malloc` gives memory
with any contents. -/
structure Outcomes where
  malloc : Except Errno { name : Bytes // name.length = nameSize }
  accept : Except Errno (Nat × Address)
  now : Int
  unlink : Except Errno Unit
  close : Except Errno Unit

/-- `uid` is the variable to which `uidptr` points, if there is one. The file system maps a
pathname to what `stat` gives for it. -/
structure Process where
  errno : Errno
  opened : List Nat
  uid : Option Nat
  files : Bytes → Except Errno Stat

/-- A descriptor is closed also where `close` fails. -/
def Process.close (process : Process) (outcome : Except Errno Unit) (fd : Nat) : Process :=
  let process := { process with opened := process.opened.erase fd }
  match outcome with
  | .error err => { process with errno := err }
  | .ok () => process

section Close

variable (process : Process) (outcome : Except Errno Unit) (fd : Nat)

theorem Process.close_opened : (process.close outcome fd).opened = process.opened.erase fd := by
  cases outcome <;> rfl

theorem Process.close_uid : (process.close outcome fd).uid = process.uid := by
  cases outcome <;> rfl

theorem Process.close_files : (process.close outcome fd).files = process.files := by
  cases outcome <;> rfl

end Close

def Process.unlink (process : Process) (outcome : Except Errno Unit) (path : Bytes) : Process :=
  match outcome with
  | .error err => { process with errno := err }
  | .ok () => { process with files := Function.update process.files path (.error ENOENT) }

/-- It is undefined where it reads or writes outside. -/
def memcpy (source : Bytes) (len : Nat) : Writer := fun area =>
  if len ≤ source.length then putBytes (source.take len) area else none

/-- The code at `errout`. -/
def errout (outcomes : Outcomes) (clifd : Nat) (rval : Int) (process : Process) : Int × Process :=
  let err := process.errno
  let process := process.close outcomes.close clifd
  (rval, { process with errno := err })

/-- The checks of the pathname and what depends on them. -/
def checkName (outcomes : Outcomes) (clifd : Nat) (name : Bytes) (process : Process) :
    Int × Process :=
  match process.files name with
  | .error err => errout outcomes clifd (-3) { process with errno := err }
  | .ok statbuf =>
      if S_ISSOCK statbuf.mode = false then
        errout outcomes clifd (-4) process
      else if statbuf.mode &&& (S_IRWXG ||| S_IRWXO) ≠ 0 ∨ statbuf.mode &&& S_IRWXU ≠ S_IRWXU then
        errout outcomes clifd (-5) process
      else
        let staletime := outcomes.now - STALE
        if statbuf.atime < staletime ∨ statbuf.ctime < staletime ∨ statbuf.mtime < staletime then
          errout outcomes clifd (-6) process
        else
          let process := { process with uid := process.uid.map fun _ => statbuf.uid }
          (clifd, process.unlink outcomes.unlink name)

/-- It is undefined where it writes outside the buffer for the name. -/
def servAccept (outcomes : Outcomes) (process : Process) : Option (Int × Process) :=
  match outcomes.malloc with
  | .error err => some (-1, { process with errno := err })
  | .ok name =>
      match outcomes.accept with
      | .error err => some (-2, { process with errno := err })
      | .ok (clifd, un) => do
          let process := { process with opened := clifd :: process.opened }
          let len := (un.len - 2).toNat
          let area ← memcpy un.sunPath len (name.val, 0)
          let (name, _) ← putBytes [0] area
          return checkName outcomes clifd (cString name) process

/-! ## What is promised -/

/-- The length of the pathname, which `accept` may give without its NUL byte or with it. -/
def Address.pathLength (un : Address) : Nat := (un.len - 2).toNat

def Address.pathname (un : Address) : Bytes := cString (un.sunPath.take un.pathLength)

/-- A socket of mode `rwx------` that is not too old. -/
structure Trusted (now : Int) (status : Stat) : Prop where
  socket : status.mode &&& S_IFMT = S_IFSOCK
  mode : status.mode &&& 0o777 = 0o700
  atime : now - status.atime ≤ STALE
  ctime : now - status.ctime ≤ STALE
  mtime : now - status.mtime ≤ STALE

structure Accepted (now : Int) (clifd : Nat) (name : Bytes) (before after : Process) : Prop where
  owner : ∃ status, before.files name = .ok status ∧ Trusted now status ∧
    after.uid = before.uid.map fun _ => status.uid
  opened : after.opened = clifd :: before.opened
  unlinked : after.files = Function.update before.files name (.error ENOENT)

structure Rejected (rval : Int) (err : Errno) (before after : Process) : Prop where
  negative : rval < 0
  closed : after.opened = before.opened
  uid : after.uid = before.uid
  files : after.files = before.files
  errno : after.errno = err

section Promise

variable (outcomes : Outcomes) (before : Process)

/-- The error number of the step that fails. A check of the status sets none. -/
inductive Fails : Errno → Prop
  | malloc {err : Errno} (failed : outcomes.malloc = .error err) : Fails err
  | accept {name : { name : Bytes // name.length = nameSize }} {err : Errno}
      (allocates : outcomes.malloc = .ok name) (failed : outcomes.accept = .error err) : Fails err
  | stat {name : { name : Bytes // name.length = nameSize }} {clifd : Nat} {un : Address}
      {err : Errno} (allocates : outcomes.malloc = .ok name)
      (accepts : outcomes.accept = .ok (clifd, un))
      (failed : before.files un.pathname = .error err) : Fails err
  | check {name : { name : Bytes // name.length = nameSize }} {clifd : Nat} {un : Address}
      {status : Stat} (allocates : outcomes.malloc = .ok name)
      (accepts : outcomes.accept = .ok (clifd, un)) (found : before.files un.pathname = .ok status)
      (notTrusted : ¬ Trusted outcomes.now status) : Fails before.errno

/-- The client is accepted, or the call fails and changes nothing but `errno`. -/
def Promised (result : Option (Int × Process)) : Prop :=
  ∃ rval after, result = some (rval, after) ∧
    ((∃ clifd un, outcomes.accept = .ok (clifd, un) ∧ rval = clifd ∧
        Accepted outcomes.now clifd un.pathname before after) ∨
      ∃ err, Fails outcomes before err ∧ Rejected rval err before after)

/-- The pathname of a client has a place in the buffer, and can be unlinked if its socket is
trusted. -/
def Suitable : Prop :=
  ∀ name clifd un, outcomes.malloc = .ok name → outcomes.accept = .ok (clifd, un) →
    un.pathLength < nameSize ∧
      ∀ status, before.files un.pathname = .ok status → Trusted outcomes.now status →
        outcomes.unlink = .ok ()

end Promise

/-! ## The name -/

theorem writes_memcpy {source : Bytes} {len : Nat} (inside : len ≤ source.length) :
    Writes (memcpy source len) (source.take len) 0 := by
  have copies : memcpy source len = putBytes (source.take len) := funext fun _ => if_pos inside
  rw [copies]
  exact writes_putBytes _

theorem cString_terminated (text rest : Bytes) : cString (text ++ 0 :: rest) = cString text := by
  induction text with
  | nil => rfl
  | cons byte text induction =>
      by_cases isNul : byte = 0
      · subst isNul
        rfl
      · have keeps : ∀ bytes, cString (byte :: bytes) = byte :: cString bytes := fun bytes =>
          List.takeWhile_cons_of_pos (decide_eq_true isNul)
        rw [List.cons_append, keeps, keeps, induction]

section Name

variable (un : Address) (name : { name : Bytes // name.length = nameSize })

/-- The copy of the pathname with its NUL byte. -/
def copyName : Option Area := memcpy un.sunPath un.pathLength (name.val, 0) >>= putBytes [0]

theorem copyName_fits (fits : un.pathLength < nameSize) :
    ∃ area, copyName un name = some area ∧ cString area.1 = un.pathname := by
  have inside : un.pathLength ≤ un.sunPath.length := by
    rw [un.whole, pathSize]
    rw [nameSize] at fits
    omega
  have writes := (writes_memcpy inside).andThen (writes_putBytes [0]) (Nat.zero_le _)
  have room : ([] : Bytes).length + (un.sunPath.take un.pathLength ++ [0]).length + 0 ≤
      name.val.length := by
    rw [List.length_append, List.length_take_of_le inside, name.property]
    simp only [List.length_nil, List.length_singleton]
    omega
  rcases writes.stores (Filled.start name.val) room with ⟨area, copied, filled⟩
  refine ⟨area, copied, ?_⟩
  rcases filled.holds with ⟨rest, whole⟩
  rw [← whole, List.nil_append, List.append_assoc, List.singleton_append]
  exact cString_terminated _ _

theorem copyName_overflows (tooLong : ¬ un.pathLength < nameSize) : copyName un name = none := by
  by_cases inside : un.pathLength ≤ un.sunPath.length
  · have writes := (writes_memcpy inside).andThen (writes_putBytes [0]) (Nat.zero_le _)
    rw [← Option.not_isSome_iff_eq_none]
    intro defined
    have within := writes.within (Filled.start name.val) defined
    rw [List.length_append, List.length_take_of_le inside, name.property] at within
    simp only [List.length_nil, List.length_singleton] at within
    omega
  · have undefined : memcpy un.sunPath un.pathLength (name.val, 0) = none := if_neg inside
    rw [copyName, undefined]
    rfl

end Name

/-! ## The checks -/

/-- The permissions of the user and those of the others make up all nine. -/
theorem mode_iff (mode : Nat) :
    mode &&& 0o777 = 0o700 ↔ mode &&& (S_IRWXG ||| S_IRWXO) = 0 ∧ mode &&& S_IRWXU = S_IRWXU := by
  have parts : mode &&& 0o777 = (mode &&& 0o700) ||| (mode &&& 0o077) :=
    Nat.and_or_distrib_left mode 0o700 0o077
  constructor
  · intro isMode
    constructor
    · have others := congrArg (· &&& 0o077) isMode
      rw [Nat.and_assoc] at others
      exact others
    · have user := congrArg (· &&& 0o700) isMode
      rw [Nat.and_assoc] at user
      exact user
  · rintro ⟨others, user⟩
    have noOthers : mode &&& 0o077 = 0 := others
    have isUser : mode &&& 0o700 = 0o700 := user
    rw [parts, noOthers, isUser]
    rfl

section Checks

variable {outcomes : Outcomes} {before : Process} {clifd : Nat} {name : Bytes} {status : Stat}
  {err : Errno}

/-- Behind `accept` every failure closes the new descriptor and keeps the error number. -/
theorem errout_rejects {rval : Int} (negative : rval < 0) (err : Errno) :
    Rejected rval err before (errout outcomes clifd rval
      { before with opened := clifd :: before.opened, errno := err }).2 := by
  constructor
  case negative => exact negative
  case closed => exact (Process.close_opened _ _ _).trans (List.erase_cons_head clifd before.opened)
  case uid => exact Process.close_uid _ _ _
  case files => exact Process.close_files _ _ _
  case errno => rfl

/-- The server when it has taken the connection. -/
def Process.connected (process : Process) (clifd : Nat) : Process :=
  { process with opened := clifd :: process.opened }

theorem checkName_absent (absent : before.files name = .error err) :
    ∃ rval after, checkName outcomes clifd name (before.connected clifd) = (rval, after) ∧
      Rejected rval err before after := by
  rw [checkName, Process.connected, absent]
  exact ⟨-3, _, rfl, errout_rejects (by decide) err⟩

theorem checkName_untrusted (found : before.files name = .ok status)
    (notTrusted : ¬ Trusted outcomes.now status) :
    ∃ rval after, checkName outcomes clifd name (before.connected clifd) = (rval, after) ∧
      Rejected rval before.errno before after := by
  rw [checkName, Process.connected, found]
  dsimp only
  by_cases isSocket : S_ISSOCK status.mode = false
  · rw [if_pos isSocket]
    exact ⟨-4, _, rfl, errout_rejects (by decide) before.errno⟩
  rw [if_neg isSocket]
  by_cases otherMode : status.mode &&& (S_IRWXG ||| S_IRWXO) ≠ 0 ∨
      status.mode &&& S_IRWXU ≠ S_IRWXU
  · rw [if_pos otherMode]
    exact ⟨-5, _, rfl, errout_rejects (by decide) before.errno⟩
  rw [if_neg otherMode]
  by_cases tooOld : status.atime < outcomes.now - STALE ∨ status.ctime < outcomes.now - STALE ∨
      status.mtime < outcomes.now - STALE
  · rw [if_pos tooOld]
    exact ⟨-6, _, rfl, errout_rejects (by decide) before.errno⟩
  simp only [not_or, not_not] at otherMode tooOld
  apply absurd _ notTrusted
  constructor
  case socket => exact beq_iff_eq.mp (eq_true_of_ne_false isSocket)
  case mode => exact (mode_iff status.mode).mpr otherMode
  case atime => omega
  case ctime => omega
  case mtime => omega

theorem checkName_trusted (found : before.files name = .ok status)
    (trusted : Trusted outcomes.now status) :
    checkName outcomes clifd name (before.connected clifd) =
      ((clifd : Int), { before.connected clifd with
        uid := before.uid.map fun _ => status.uid }.unlink outcomes.unlink name) := by
  have isSocket : ¬ S_ISSOCK status.mode = false := by
    rw [S_ISSOCK, trusted.socket]
    decide
  have isMode := (mode_iff status.mode).mp trusted.mode
  have sameMode : ¬ (status.mode &&& (S_IRWXG ||| S_IRWXO) ≠ 0 ∨
      status.mode &&& S_IRWXU ≠ S_IRWXU) := by
    rw [not_or, not_not, not_not]
    exact isMode
  have notOld : ¬ (status.atime < outcomes.now - STALE ∨ status.ctime < outcomes.now - STALE ∨
      status.mtime < outcomes.now - STALE) := by
    have atime := trusted.atime
    have ctime := trusted.ctime
    have mtime := trusted.mtime
    omega
  rw [checkName, Process.connected, found]
  dsimp only
  rw [if_neg isSocket, if_neg sameMode, if_neg notOld]

end Checks

/-! ## The whole call -/

section Call

variable {outcomes : Outcomes} {before : Process} {clifd : Nat} {un : Address}
  {name : { name : Bytes // name.length = nameSize }}

theorem servAccept_connected (allocates : outcomes.malloc = .ok name)
    (accepts : outcomes.accept = .ok (clifd, un)) :
    servAccept outcomes before = (copyName un name).map fun area =>
      checkName outcomes clifd (cString area.1) (before.connected clifd) := by
  rw [servAccept, allocates, accepts, copyName]
  change ((memcpy un.sunPath un.pathLength (name.val, 0)).bind _) = _
  cases memcpy un.sunPath un.pathLength (name.val, 0) with
  | none => rfl
  | some area =>
      change ((putBytes [0] area).bind _) = (putBytes [0] area).map _
      cases putBytes [0] area <;> rfl

theorem promised_of_rejected {result : Int × Process} {err : Errno}
    (called : servAccept outcomes before = some result) (fails : Fails outcomes before err)
    (rejected : ∃ rval after, result = (rval, after) ∧ Rejected rval err before after) :
    Promised outcomes before (servAccept outcomes before) := by
  rcases rejected with ⟨rval, after, rfl, rejected⟩
  exact ⟨rval, after, called, Or.inr ⟨err, fails, rejected⟩⟩

theorem promised_of_suitable (suitable : Suitable outcomes before) :
    Promised outcomes before (servAccept outcomes before) := by
  cases allocates : outcomes.malloc with
  | error err =>
      have called : servAccept outcomes before = some (-1, { before with errno := err }) := by
        rw [servAccept, allocates]
      exact promised_of_rejected called (.malloc allocates)
        ⟨_, _, rfl, by decide, rfl, rfl, rfl, rfl⟩
  | ok name =>
  cases accepts : outcomes.accept with
  | error err =>
      have called : servAccept outcomes before = some (-2, { before with errno := err }) := by
        rw [servAccept, allocates, accepts]
      exact promised_of_rejected called (.accept allocates accepts)
        ⟨_, _, rfl, by decide, rfl, rfl, rfl, rfl⟩
  | ok client =>
  rcases client with ⟨clifd, un⟩
  rcases suitable name clifd un allocates accepts with ⟨fits, unlinks⟩
  rcases copyName_fits un name fits with ⟨area, copied, isName⟩
  have called := @servAccept_connected outcomes before clifd un name allocates accepts
  rw [copied, Option.map_some, isName] at called
  cases found : before.files un.pathname with
  | error err =>
      exact promised_of_rejected called (.stat allocates accepts found) (checkName_absent found)
  | ok status =>
      by_cases trusted : Trusted outcomes.now status
      · rw [checkName_trusted found trusted, unlinks status found trusted] at called
        exact ⟨_, _, called, Or.inl ⟨clifd, un, accepts, rfl, ⟨status, found, trusted, rfl⟩, rfl, rfl⟩⟩
      · exact promised_of_rejected called (.check allocates accepts found trusted)
          (checkName_untrusted found trusted)

theorem suitable_of_promised (promised : Promised outcomes before (servAccept outcomes before)) :
    Suitable outcomes before := by
  intro name clifd un allocates accepts
  rcases promised with ⟨rval, after, called, holds⟩
  rw [servAccept_connected allocates accepts] at called
  by_cases fits : un.pathLength < nameSize
  · refine ⟨fits, ?_⟩
    intro status found trusted
    rcases copyName_fits un name fits with ⟨area, copied, isName⟩
    rw [copied, Option.map_some, isName, checkName_trusted found trusted] at called
    cases unlinks : outcomes.unlink with
    | ok _ => rfl
    | error err =>
        rw [unlinks] at called
        cases called
        rcases holds with ⟨otherFd, other, sameAccept, _, accepted⟩ | ⟨_, _, rejected⟩
        · rw [accepts] at sameAccept
          cases sameAccept
          have kept : before.files un.pathname = .error ENOENT := by
            have files : before.files = Function.update before.files un.pathname (.error ENOENT) :=
              accepted.unlinked
            rw [files, Function.update_self]
          rw [found] at kept
          cases kept
        · exact absurd rejected.negative (by omega)
  · rw [copyName_overflows un name fits] at called
    cases called

end Call

/-- `serv_accept` does what it promises exactly for the clients whose pathname has at most seven
bytes, where it can unlink the pathnames that it trusts. -/
theorem servAccept_promised_iff (outcomes : Outcomes) (before : Process) :
    Promised outcomes before (servAccept outcomes before) ↔ Suitable outcomes before :=
  ⟨suitable_of_promised, promised_of_suitable⟩

/-- The client with process ID 1234 and the pathname that `cli_conn` gives it. -/
def cliConn : Address where
  len := 16
  sunPath := text "/var/tmp/01234" ++ List.replicate 94 0
  whole := rfl

def freshClient : Outcomes where
  malloc := .ok ⟨List.replicate nameSize 0, rfl⟩
  accept := .ok (4, cliConn)
  now := 1000
  unlink := .ok ()
  close := .ok ()

def listening : Process where
  errno := 0
  opened := [3]
  uid := some 0
  files := fun _ => .ok { mode := 0o140700, uid := 100, atime := 990, ctime := 990, mtime := 990 }

theorem not_promised_cliConn :
    ¬ Promised freshClient listening (servAccept freshClient listening) := by
  intro promised
  have fits := (suitable_of_promised promised _ 4 cliConn rfl rfl).1
  exact absurd fits (by decide)

end Apue.Opend.Accepting
