import Mathlib.Data.List.Nodup
import Apue.Foundation.Run
import Apue.Opend.Client

/-! # The poll-based loop of the open server

`loop` of `ipc2/opend/loop.poll.c` keeps its descriptors in `pollfd`, packed at
the front: when a client hangs up, the last entry moves into its place. The
client table is never packed. The loop reads the user ID of the client at
position `i` of `pollfd` from position `i` of the client table.
-/

namespace Apue.Opend

open Apue.Foundation

structure Revents where
  pollin : Bool
  pollhup : Bool
  deriving DecidableEq, Repr

def Revents.none : Revents := { pollin := false, pollhup := false }

structure PollFd where
  fd : Int
  revents : Revents
  deriving DecidableEq, Repr

def PollFd.unused : PollFd := { fd := -1, revents := .none }

/-- What `read` gives on a client's descriptor. -/
inductive ReadResult
  | error
  | eof
  | data (buf : List UInt8)
  deriving DecidableEq, Repr

/-- A call of `handle_request`. `owner` is the user ID that `serv_accept`
returned when this connection was accepted; the server does not store it. -/
structure Request where
  buf : List UInt8
  fd : Int
  uid : Option Nat
  owner : Option Nat
  deriving DecidableEq, Repr

/-- The variables of `loop`, and below them a history: the user ID with which
each open connection was accepted, and the requests handled. -/
structure Server where
  client : List Client
  pollfd : List PollFd
  numfd : Nat
  accepted : Int → Option Nat
  handled : List Request

/-- What one iteration meets: the events `poll` reports, what `serv_accept`
returns if it is called, and what `read` returns on each descriptor. -/
structure Poll where
  revents : Nat → Revents
  accept : Option (Int × Nat)
  read : Int → ReadResult

def growPollfd (pollfd : List PollFd) : List PollFd :=
  pollfd ++ List.replicate NALLOC .unused

def Server.initial (listenfd : Int) : Server where
  client := (clientAdd [] listenfd 0).1
  pollfd := (List.replicate NALLOC .unused).set 0 { fd := listenfd, revents := .none }
  numfd := 1
  accepted := fun _ => none
  handled := []

/-- The part of the loop that takes a new connection. -/
def Server.accept (server : Server) (clifd : Int) (uid : Nat) : Server :=
  let pollfd :=
    if server.numfd = server.pollfd.length then growPollfd server.pollfd
    else server.pollfd
  { server with
    client := (clientAdd server.client clifd uid).1
    pollfd := pollfd.set server.numfd { fd := clifd, revents := .none }
    numfd := server.numfd + 1
    accepted := fun fd => if fd = clifd then some uid else server.accepted fd }

/-- `poll` writes the events of the entries in use. -/
def Server.polled (server : Server) (revents : Nat → Revents) : Server :=
  { server with
    pollfd := server.pollfd.mapIdx fun i entry =>
      if i < server.numfd then { entry with revents := revents i } else entry }

/-- The code at `hungup`, with the index at which the `for` loop goes on. -/
def Server.hungup (server : Server) (i : Nat) (entry : PollFd) :
    Option (Server × Nat) := do
  let client ← clientDel server.client entry.fd
  let closed := { server with
    client
    accepted := fun fd => if fd = entry.fd then none else server.accepted fd
    numfd := server.numfd - 1 }
  if i < server.numfd - 1 then
    let last ← server.pollfd[server.numfd - 1]?
    return ({ closed with pollfd := server.pollfd.set i last }, i)
  else
    return (closed, i + 1)

/-- The `for` loop from position `i`, with `remaining` entries to go: handling
an entry either advances `i` or shortens the table. `none` when the server
exits. -/
def pass (read : Int → ReadResult) : Nat → Nat → Server → Option Server
  | 0, _, server => some server
  | remaining + 1, i, server => do
      let entry ← server.pollfd[i]?
      if entry.revents.pollhup then
        let (server, i) ← server.hungup i entry
        pass read remaining i server
      else if entry.revents.pollin then
        match read entry.fd with
        | .error => none
        | .eof =>
            let (server, i) ← server.hungup i entry
            pass read remaining i server
        | .data buf =>
            let slot ← server.client[i]?
            let request : Request :=
              { buf, fd := entry.fd, uid := slot.uid, owner := server.accepted entry.fd }
            pass read remaining (i + 1)
              { server with handled := server.handled ++ [request] }
      else
        pass read remaining (i + 1) server

/-- One iteration of the endless loop. -/
def loopOnce (server : Server) (poll : Poll) : Option Server := do
  let server := server.polled poll.revents
  let server ←
    if (poll.revents 0).pollin then
      poll.accept.map fun (clifd, uid) => server.accept clifd uid
    else
      some server
  pass poll.read (server.numfd - 1) 1 server

/-! ## The two tables side by side -/

structure Connection where
  fd : Int
  uid : Nat
  deriving DecidableEq, Repr

def Connection.entry (connection : Connection) : Client :=
  { fd := connection.fd, uid := some connection.uid }

/-- Both tables hold the connections in the same order, the listening
descriptor first. -/
structure Aligned (server : Server) (connections : List Connection) : Prop where
  client : ∃ free, server.client = connections.map Connection.entry ++ free ∧
    ∀ entry ∈ free, entry.fd = -1
  pollfd : ∃ active spare, server.pollfd = active ++ spare ∧
    active.map PollFd.fd = connections.map Connection.fd
  numfd : server.numfd = connections.length
  distinct : (connections.map Connection.fd).Nodup
  opened : ∀ connection ∈ connections, 0 ≤ connection.fd
  nonempty : connections ≠ []
  accepted : ∀ connection ∈ connections.tail,
    server.accepted connection.fd = some connection.uid
  handled : ∀ request ∈ server.handled,
    request.uid = request.owner ∧ request.owner.isSome

/-- The kernel hands out a descriptor that is not in use. -/
def Granted (server : Server) (poll : Poll) : Prop :=
  ∀ clifd uid, poll.accept = some (clifd, uid) →
    0 ≤ clifd ∧ ∀ entry ∈ server.pollfd.take server.numfd, entry.fd ≠ clifd

/-- The events and the read result that make the loop close an entry. -/
def hangsUp (revents : Revents) (result : ReadResult) : Prop :=
  revents.pollhup = true ∨ revents.pollin = true ∧ result = .eof

/-- No client hangs up while another one stands behind it in `pollfd`, so the
loop never packs the array. A client accepted in this iteration counts. -/
def OnlyLastHangsUp (server : Server) (poll : Poll) : Prop :=
  ∀ i entry, 1 ≤ i → i + 1 < server.numfd + (poll.revents 0).pollin.toNat →
    server.pollfd[i]? = some entry →
    ¬ hangsUp (poll.revents i) (poll.read entry.fd)

theorem Aligned.initial {listenfd : Int} (valid : 0 ≤ listenfd) :
    Aligned (.initial listenfd) [{ fd := listenfd, uid := 0 }] where
  client := ⟨List.replicate 9 { fd := -1, uid := none }, rfl, by simp⟩
  pollfd := ⟨[{ fd := listenfd, revents := .none }], List.replicate 9 .unused, rfl, rfl⟩
  numfd := rfl
  distinct := List.nodup_singleton _
  opened := by simpa using valid
  nonempty := by simp
  accepted := by simp
  handled := by simp [Server.initial]

theorem Aligned.polled {server : Server} {connections : List Connection}
    (aligned : Aligned server connections) (revents : Nat → Revents) :
    Aligned (server.polled revents) connections := by
  rcases aligned.pollfd with ⟨active, spare, split, fds⟩
  have activeLength : active.length = server.numfd := by
    rw [aligned.numfd, ← List.length_map (f := PollFd.fd), fds, List.length_map]
  let write (i : Nat) (entry : PollFd) : PollFd :=
    if i < server.numfd then { entry with revents := revents i } else entry
  have keepsFd : ∀ i entry, (write i entry).fd = entry.fd := by
    intro i entry
    by_cases used : i < server.numfd <;> simp [write, used]
  exact { aligned with
    pollfd := by
      refine ⟨active.mapIdx write,
        spare.mapIdx fun i entry => write (i + active.length) entry, ?_, ?_⟩
      · simp [Server.polled, split, List.mapIdx_append, write]
      · rw [← fds]
        apply List.ext_getElem
        · simp
        · intro i _ _
          simp [keepsFd] }

theorem Aligned.accept {server : Server} {connections : List Connection}
    (aligned : Aligned server connections) {clifd : Int} (uid : Nat)
    (valid : 0 ≤ clifd) (fresh : clifd ∉ connections.map Connection.fd) :
    Aligned (server.accept clifd uid)
      (connections ++ [{ fd := clifd, uid }]) := by
  rcases aligned.client with ⟨free, clientSplit, freeFd⟩
  rcases aligned.pollfd with ⟨active, spare, pollSplit, fds⟩
  have activeLength : active.length = server.numfd := by
    rw [aligned.numfd, ← List.length_map (f := PollFd.fd), fds, List.length_map]
  have occupiedFd : ∀ entry ∈ connections.map Connection.entry, entry.fd ≠ -1 := by
    intro entry member
    rcases List.mem_map.mp member with ⟨connection, inside, rfl⟩
    have := aligned.opened connection inside
    simp only [Connection.entry]
    omega
  constructor
  case client =>
    rcases clientAdd_append clifd uid occupiedFd freeFd with ⟨rest, added, restFd⟩
    refine ⟨rest, ?_, restFd⟩
    simp [Server.accept, clientSplit, added, Connection.entry]
  case pollfd =>
    have room : ∃ slot rest, (if server.numfd = server.pollfd.length then
        growPollfd server.pollfd else server.pollfd) = active ++ slot :: rest := by
      cases spare with
      | nil =>
          refine ⟨.unused, List.replicate 9 .unused, ?_⟩
          simp [pollSplit, activeLength, growPollfd, NALLOC, List.replicate_succ]
      | cons slot rest => exact ⟨slot, rest, by simp [pollSplit, activeLength]⟩
    rcases room with ⟨slot, rest, room⟩
    refine ⟨active ++ [{ fd := clifd, revents := .none }], rest, ?_, by simp [fds]⟩
    simp only [Server.accept]
    rw [room, ← activeLength]
    simp
  case numfd => simp [Server.accept, aligned.numfd]
  case distinct =>
    rw [List.map_append, List.nodup_append]
    refine ⟨aligned.distinct, List.nodup_singleton _, ?_⟩
    intro fd member other isNew equal
    obtain rfl : other = clifd := by simpa using isNew
    exact fresh (equal ▸ member)
  case opened =>
    intro connection member
    rcases List.mem_append.mp member with old | new
    · exact aligned.opened connection old
    · obtain rfl := List.mem_singleton.mp new
      exact valid
  case nonempty => simp
  case accepted =>
    rw [List.tail_append_of_ne_nil aligned.nonempty]
    intro connection member
    rcases List.mem_append.mp member with old | new
    · have different : connection.fd ≠ clifd := fun equal => fresh
        (equal ▸ List.mem_map_of_mem (List.mem_of_mem_tail old))
      simp [Server.accept, different, aligned.accepted connection old]
    · obtain rfl := List.mem_singleton.mp new
      simp [Server.accept]
  case handled => exact aligned.handled

/-- The entry of the last connection, in both tables. -/
theorem Aligned.hungup_last {server : Server} {connections : List Connection}
    {last : Connection} (aligned : Aligned server (connections ++ [last]))
    (nonempty : connections ≠ []) {entry : PollFd}
    (isLast : server.pollfd[connections.length]? = some entry) :
    ∃ closed, server.hungup connections.length entry =
        some (closed, connections.length + 1) ∧ Aligned closed connections := by
  rcases aligned.client with ⟨free, clientSplit, freeFd⟩
  rcases aligned.pollfd with ⟨active, spare, pollSplit, fds⟩
  have parts := List.nodup_append.mp (List.map_append ▸ aligned.distinct)
  have entryFd : entry.fd = last.fd := by
    have activeLength : active.length = connections.length + 1 := by
      rw [← List.length_map (f := PollFd.fd), fds]
      simp
    have atLast := congrArg (fun fds => fds[connections.length]?) fds
    rw [pollSplit, List.getElem?_append_left (by omega)] at isLast
    simpa [isLast] using atLast
  have different : ∀ connection ∈ connections, connection.fd ≠ last.fd := by
    intro connection member equal
    exact parts.2.2 _ (List.mem_map_of_mem member) last.fd (by simp) equal
  have deleted : clientDel server.client entry.fd =
      some (connections.map Connection.entry ++
        { fd := -1, uid := some last.uid } :: free) := by
    have removed : clientDel (connections.map Connection.entry ++ last.entry :: free)
        last.entry.fd = _ := clientDel_append (by simpa [Connection.entry] using different)
    rw [clientSplit, entryFd]
    simpa [Connection.entry] using removed
  have notPacked : ¬ connections.length < server.numfd - 1 := by
    simp [aligned.numfd]
  refine ⟨_, by simp [Server.hungup, deleted, notPacked]; rfl, ?_⟩
  constructor
  case client =>
    refine ⟨{ fd := -1, uid := some last.uid } :: free, rfl, ?_⟩
    intro entry member
    rcases List.mem_cons.mp member with rfl | old
    · rfl
    · exact freeFd entry old
  case pollfd =>
    have splitFds : ∃ front back, active = front ++ back ∧
        front.map PollFd.fd = connections.map Connection.fd := by
      rw [List.map_append] at fds
      rcases List.map_eq_append_iff.mp fds with ⟨front, back, split, frontFds, _⟩
      exact ⟨front, back, split, frontFds⟩
    rcases splitFds with ⟨front, back, rfl, frontFds⟩
    exact ⟨front, back ++ spare, by simp [pollSplit], frontFds⟩
  case numfd => simp [aligned.numfd]
  case distinct => exact parts.1
  case opened =>
    exact fun connection member => aligned.opened connection (by simp [member])
  case nonempty => exact nonempty
  case accepted =>
    intro connection member
    have inside := List.mem_of_mem_tail member
    have known := aligned.accepted connection (by
      rw [List.tail_append_of_ne_nil nonempty]
      simp [member])
    simp [entryFd, different connection inside, known]
  case handled => exact aligned.handled

/-- Position `i` of the two tables belongs to the same connection. -/
theorem Aligned.slot {server : Server} {connections : List Connection}
    (aligned : Aligned server connections) {i : Nat} {entry : PollFd} {slot : Client}
    (positive : 1 ≤ i) (inUse : i < connections.length)
    (atEntry : server.pollfd[i]? = some entry) (atSlot : server.client[i]? = some slot) :
    ∃ uid, slot.uid = some uid ∧ server.accepted entry.fd = some uid := by
  rcases aligned.client with ⟨free, clientSplit, _⟩
  rcases aligned.pollfd with ⟨active, spare, pollSplit, fds⟩
  have activeLength : active.length = connections.length := by
    rw [← List.length_map (f := PollFd.fd), fds, List.length_map]
  rw [pollSplit, List.getElem?_append_left (by omega)] at atEntry
  rw [clientSplit, List.getElem?_append_left (by simpa using inUse)] at atSlot
  have entryFd : entry.fd = connections[i].fd := by
    have atIndex := congrArg (fun fds => fds[i]?) fds
    simpa [atEntry, inUse] using atIndex
  have slotIs : connections[i].entry = slot := by simpa [inUse] using atSlot
  refine ⟨connections[i].uid, by rw [← slotIs]; rfl, ?_⟩
  rw [entryFd]
  apply aligned.accepted
  rcases Nat.exists_eq_succ_of_ne_zero (by omega : i ≠ 0) with ⟨k, rfl⟩
  rw [← List.getElem_tail (by simpa using Nat.lt_sub_of_add_lt inUse)]
  exact List.getElem_mem _

/-- The pass over the entries from `i` on keeps the tables aligned. -/
theorem pass_aligned {read : Int → ReadResult} :
    ∀ {remaining i : Nat} {server server' : Server} {connections : List Connection},
      Aligned server connections → 1 ≤ i → i + remaining = connections.length →
      (∀ j entry, i ≤ j → j + 1 < connections.length →
        server.pollfd[j]? = some entry → ¬ hangsUp entry.revents (read entry.fd)) →
      pass read remaining i server = some server' →
      ∃ connections', Aligned server' connections'
  | 0, _, server, server', connections, aligned, _, _, _, passed => by
      rw [← Option.some.inj passed]
      exact ⟨connections, aligned⟩
  | remaining + 1, i, server, server', connections, aligned, positive, count, quiet,
      passed => by
      simp only [pass, Option.bind_eq_bind, Option.bind_eq_some_iff] at passed
      rcases passed with ⟨entry, atEntry, passed⟩
      -- Only the last entry may reach the code at `hungup`.
      have hungup : hangsUp entry.revents (read entry.fd) →
          (server.hungup i entry).bind (fun after => pass read remaining after.2 after.1) =
            some server' → ∃ connections', Aligned server' connections' := by
        intro hangs passed
        have isLast : ¬ i + 1 < connections.length := fun behind =>
          quiet i entry (Nat.le_refl i) behind atEntry hangs
        rcases List.eq_nil_or_concat' connections with rfl | ⟨front, last, rfl⟩
        · simp at count
        · have frontLength : front.length = i := by simp at count isLast; omega
          have frontNonempty : front ≠ [] := by
            rintro rfl
            simp at frontLength
            omega
          subst frontLength
          rcases aligned.hungup_last frontNonempty atEntry with ⟨closed, closes, closedAligned⟩
          have done : remaining = 0 := by simp at count; omega
          subst done
          rw [closes] at passed
          exact ⟨front, Option.some.inj passed ▸ closedAligned⟩
      have advance : ∀ next : Server, next.pollfd = server.pollfd →
          Aligned next connections → pass read remaining (i + 1) next = some server' →
          ∃ connections', Aligned server' connections' := by
        intro next samePollfd nextAligned passed
        apply pass_aligned nextAligned (by omega) (by omega) ?_ passed
        intro j entry after behind atEntry
        exact quiet j entry (by omega) behind (samePollfd ▸ atEntry)
      by_cases hup : entry.revents.pollhup = true
      · exact hungup (.inl hup) (by simpa [hup] using passed)
      by_cases readable : entry.revents.pollin = true
      · cases result : read entry.fd with
        | error => simp [hup, readable, result] at passed
        | eof =>
            exact hungup (.inr ⟨readable, result⟩)
              (by simpa [hup, readable, result] using passed)
        | data buf =>
            rw [if_neg hup, if_pos readable, result] at passed
            simp only [Option.bind_eq_some_iff] at passed
            rcases passed with ⟨slot, atSlot, passed⟩
            refine advance { server with handled := server.handled ++ [_] } rfl
              { aligned with handled := ?_ } passed
            intro request member
            rcases List.mem_append.mp member with old | new
            · exact aligned.handled request old
            · rcases aligned.slot positive (by omega) atEntry atSlot with ⟨uid, slotUid, owner⟩
              rw [List.mem_singleton.mp new]
              simp [slotUid, owner]
      · simp only [hup, readable] at passed
        exact advance server rfl aligned passed

theorem Server.polled_getElem? {server : Server} {revents : Nat → Revents} {j : Nat}
    {entry : PollFd} (used : j < server.numfd)
    (atEntry : (server.polled revents).pollfd[j]? = some entry) :
    ∃ old, server.pollfd[j]? = some old ∧ entry = { old with revents := revents j } := by
  simp only [Server.polled, List.getElem?_mapIdx, Option.map_eq_some_iff] at atEntry
  rcases atEntry with ⟨old, atOld, equal⟩
  exact ⟨old, atOld, by rw [← equal, if_pos used]⟩

theorem Server.accept_getElem? {server : Server} {clifd : Int} {uid j : Nat}
    (used : j < server.numfd) :
    (server.accept clifd uid).pollfd[j]? = server.pollfd[j]? := by
  simp only [Server.accept]
  rw [List.getElem?_set_ne (by omega)]
  split
  · rw [growPollfd, List.getElem?_append_left (by omega)]
  · rfl

theorem Aligned.loopOnce {server server' : Server} {connections : List Connection}
    {poll : Poll} (aligned : Aligned server connections) (granted : Granted server poll)
    (onlyLast : OnlyLastHangsUp server poll) (looped : loopOnce server poll = some server') :
    ∃ connections', Aligned server' connections' := by
  have polledAligned := aligned.polled poll.revents
  have quiet : ∀ j old, 1 ≤ j → j + 1 < server.numfd + (poll.revents 0).pollin.toNat →
      j < server.numfd → ((server.polled poll.revents).pollfd)[j]? = some old →
      ¬ hangsUp old.revents (poll.read old.fd) := by
    intro j entry positive behind used atEntry
    rcases Server.polled_getElem? used atEntry with ⟨old, atOld, rfl⟩
    exact onlyLast j old positive behind atOld
  by_cases listening : (poll.revents 0).pollin = true
  · simp only [Opend.loopOnce, if_pos listening, Option.bind_eq_bind,
      Option.bind_eq_some_iff, Option.map_eq_some_iff] at looped
    rcases looped with ⟨_, ⟨⟨clifd, uid⟩, acceptIs, rfl⟩, passed⟩
    rcases granted clifd uid acceptIs with ⟨valid, unused⟩
    have fresh : clifd ∉ connections.map Connection.fd := by
      intro member
      rcases aligned.pollfd with ⟨active, spare, split, fds⟩
      rw [← fds] at member
      rcases List.mem_map.mp member with ⟨entry, inside, equal⟩
      refine unused entry ?_ equal
      have activeLength := congrArg List.length fds
      simp only [List.length_map] at activeLength
      simp [split, aligned.numfd, ← activeLength, inside]
    have middleAligned := polledAligned.accept uid valid fresh
    apply pass_aligned middleAligned (by omega) ?_ ?_ passed
    · rw [middleAligned.numfd]
      simp
      omega
    · intro j entry positive behind atEntry
      have used : j < server.numfd := by
        rw [aligned.numfd]
        simpa using behind
      rw [Server.accept_getElem? (by exact used)] at atEntry
      exact quiet j entry positive (by simp [listening]; omega) used atEntry
  · simp only [Opend.loopOnce, if_neg listening, Option.bind_eq_bind,
      Option.bind_some] at looped
    have someConnection := List.length_pos_of_ne_nil aligned.nonempty
    apply pass_aligned polledAligned (by omega) ?_ ?_ looped
    · rw [polledAligned.numfd]
      omega
    · intro j entry positive behind atEntry
      have used : j + 1 < server.numfd := by rwa [aligned.numfd]
      exact quiet j entry positive (by omega) (by omega) atEntry

/-- As long as the array is never packed, the loop passes each request on under
the user ID with which its connection was accepted. -/
theorem loop_passes_owner {listenfd : Int} (valid : 0 ≤ listenfd) (polls : List Poll)
    (granted : EveryStep loopOnce Granted (.initial listenfd) polls)
    (onlyLast : EveryStep loopOnce OnlyLastHangsUp (.initial listenfd) polls) :
    EveryState loopOnce
      (fun server => ∀ request ∈ server.handled,
        request.uid = request.owner ∧ request.owner.isSome)
      (.initial listenfd) polls := by
  have aligned : EveryState loopOnce (fun server => ∃ connections, Aligned server connections)
      (.initial listenfd) polls := by
    apply everyState_of_invariant _ ⟨_, .initial valid⟩ (granted.and onlyLast)
    intro server poll next alignedBefore guard looped
    rcases alignedBefore with ⟨connections, aligned⟩
    exact aligned.loopOnce guard.1 guard.2 looped
  exact aligned.mono fun server => fun ⟨_, aligned⟩ => aligned.handled

/-- A poll that only reports a connection request. -/
def Poll.connect (clifd : Int) (uid : Nat) : Poll where
  revents i := if i = 0 then { pollin := true, pollhup := false } else .none
  accept := some (clifd, uid)
  read _ := .eof

/-- A poll that only reports a request of the client at position `i`. -/
def Poll.request (i : Nat) (buf : List UInt8) : Poll where
  revents j := if j = i then { pollin := true, pollhup := false } else .none
  accept := none
  read _ := .data buf

/-- A poll that only reports that the client at position `i` hung up. -/
def Poll.hangup (i : Nat) : Poll where
  revents j := if j = i then { pollin := false, pollhup := true } else .none
  accept := none
  read _ := .eof

theorem loop_passes_owner_connect_request :
    EveryState loopOnce
      (fun server => ∀ request ∈ server.handled,
        request.uid = request.owner ∧ request.owner.isSome)
      (.initial 3) [.connect 4 100, .request 1 [111, 0]] := by
  apply loop_passes_owner (by decide)
  · refine ⟨fun clifd uid accepts => ?_, fun next looped => ?_⟩
    · obtain ⟨rfl, rfl⟩ : 4 = clifd ∧ 100 = uid := by simpa [Poll.connect] using accepts
      exact ⟨by decide, by decide⟩
    · exact ⟨fun clifd uid accepts => by simp [Poll.request] at accepts, fun _ _ => trivial⟩
  · refine ⟨fun i entry positive behind => ?_, fun next looped => ?_⟩
    · simp [Server.initial, Poll.connect] at behind
      omega
    · obtain rfl := Option.some.inj looped
      refine ⟨fun i entry positive behind _ => ?_, fun _ _ => trivial⟩
      simp [Server.initial, Server.accept, Server.polled, Poll.request, Revents.none] at behind
      omega

/-- Two clients connect, the first one hangs up, the second one sends a request
and gets the first one's user ID. -/
theorem loop_passes_stranger :
    EveryStep loopOnce Granted (.initial 3)
        [.connect 4 100, .connect 5 200, .hangup 1, .request 1 [111, 0]] ∧
      ¬ EveryState loopOnce
        (fun server => ∀ request ∈ server.handled,
          request.uid = request.owner ∧ request.owner.isSome)
        (.initial 3) [.connect 4 100, .connect 5 200, .hangup 1, .request 1 [111, 0]] := by
  constructor
  · refine ⟨fun clifd uid accepts => ?_, fun second looped => ?_⟩
    · obtain ⟨rfl, rfl⟩ : 4 = clifd ∧ 100 = uid := by simpa [Poll.connect] using accepts
      exact ⟨by decide, by decide⟩
    obtain rfl := Option.some.inj looped
    refine ⟨fun clifd uid accepts => ?_, fun third looped => ?_⟩
    · obtain ⟨rfl, rfl⟩ : 5 = clifd ∧ 200 = uid := by simpa [Poll.connect] using accepts
      exact ⟨by decide, by decide⟩
    exact ⟨fun _ _ accepts => by simp [Poll.hangup] at accepts, fun _ _ =>
      ⟨fun _ _ accepts => by simp [Poll.request] at accepts, fun _ _ => trivial⟩⟩
  · intro holds
    have wrong : (List.foldlM loopOnce (Server.initial 3)
        [.connect 4 100, .connect 5 200, .hangup 1, .request 1 [111, 0]]).map
          Server.handled =
        some [{ buf := [111, 0], fd := 5, uid := some 100, owner := some 200 }] := by
      decide
    rcases Option.map_eq_some_iff.mp wrong with ⟨server, ran, handled⟩
    have right := holds.last ran
    rw [handled] at right
    simp at right

end Apue.Opend
