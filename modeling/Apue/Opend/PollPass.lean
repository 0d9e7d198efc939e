import Mathlib.Data.List.Perm.Basic
import Apue.Opend.PollLoop

/-! # A pass over the poll array

The `for` loop of `ipc2/opend/loop.poll.c` with a record of what it does to the entries.
An entry that hangs up is replaced by the last one, which the loop looks at next.
-/

namespace Apue.Opend

open Apue.Foundation

/-- What the loop does to an entry that `poll` has reported. -/
inductive Handling
  | closed (fd : Int)
  | requested (fd : Int) (buf : List UInt8)

def Handling.fd : Handling → Int
  | .closed fd => fd
  | .requested fd _ => fd

/-- What is handled first, and what is handled behind it. -/
def record (handling : Handling) (rest : Option (Server × List Handling)) :
    Option (Server × List Handling) :=
  rest.map fun (server, log) => (server, handling :: log)

/-- The `for` loop from position `i`, with a bound on its rounds. -/
def passLog (read : Int → ReadResult) : Nat → Nat → Server → Option (Server × List Handling)
  | 0, _, _ => none
  | rounds + 1, i, server =>
      if i < server.numfd then do
        let entry ← server.pollfd[i]?
        if entry.revents.pollhup then
          let (server, i) ← server.hungup i entry
          record (.closed entry.fd) (passLog read rounds i server)
        else if entry.revents.pollin then
          match read entry.fd with
          | .error => none
          | .eof =>
              let (server, i) ← server.hungup i entry
              record (.closed entry.fd) (passLog read rounds i server)
          | .data buf =>
              let slot ← server.client[i]?
              let request : Request :=
                { buf, fd := entry.fd, uid := slot.uid, owner := server.accepted entry.fd }
              record (.requested entry.fd buf) (passLog read rounds (i + 1)
                { server with handled := server.handled ++ [request] })
        else
          passLog read rounds (i + 1) server
      else some (server, [])

/-- The server in front of the `for` loop. -/
def Server.beforePass (server : Server) (poll : Poll) : Option Server :=
  let server := server.polled poll.revents
  if (poll.revents 0).pollin then
    poll.accept.map fun (clifd, uid) => server.accept clifd uid
  else
    some server

/-- One iteration of the endless loop. -/
def loopLog (server : Server) (poll : Poll) : Option (Server × List Handling) := do
  let server ← server.beforePass poll
  passLog poll.read server.numfd 1 server

/-! ## The same states -/

/-- Whether the index moves or the array shrinks, one entry less is left. -/
theorem Server.hungup_count {server closed : Server} {i next : Nat} {entry : PollFd}
    (closes : server.hungup i entry = some (closed, next)) (inUse : i < server.numfd) :
    closed.numfd - next = server.numfd - (i + 1) := by
  rcases Option.bind_eq_some_iff.mp closes with ⟨client, _, closes⟩
  dsimp only at closes
  split at closes
  · rcases Option.bind_eq_some_iff.mp closes with ⟨last, _, closes⟩
    cases closes
    dsimp only
    omega
  · cases closes
    dsimp only
    omega

theorem record_fst (handling : Handling) (rest : Option (Server × List Handling)) :
    (record handling rest).map Prod.fst = rest.map Prod.fst := by
  rw [record, Option.map_map]
  rfl

/-- With a round for every entry that is left the loop comes to its end. -/
theorem passLog_fst {read : Int → ReadResult} :
    ∀ {rounds i : Nat} {server : Server}, server.numfd - i < rounds →
      (passLog read rounds i server).map Prod.fst = pass read (server.numfd - i) i server
  | 0, i, server, enough => absurd enough (Nat.not_lt_zero _)
  | rounds + 1, i, server, enough => by
      rw [passLog]
      by_cases more : i < server.numfd
      · have count : server.numfd - i = (server.numfd - (i + 1)) + 1 := by omega
        have fewer : server.numfd - (i + 1) < rounds := by omega
        rw [if_pos more, count, pass]
        cases server.pollfd[i]? with
        | none => rfl
        | some entry =>
            have closing : ((server.hungup i entry).bind fun after =>
                record (.closed entry.fd) (passLog read rounds after.2 after.1)).map Prod.fst =
                (server.hungup i entry).bind fun after =>
                  pass read (server.numfd - (i + 1)) after.2 after.1 := by
              cases closes : server.hungup i entry with
              | none => rfl
              | some after =>
                  have left := Server.hungup_count closes more
                  rw [Option.bind_some, Option.bind_some, record_fst, ← left]
                  apply passLog_fst
                  rw [left]
                  exact fewer
            simp only [Option.bind_eq_bind, Option.bind_some]
            by_cases hup : entry.revents.pollhup = true
            · rw [if_pos hup, if_pos hup]
              exact closing
            · rw [if_neg hup, if_neg hup]
              by_cases readable : entry.revents.pollin = true
              · rw [if_pos readable, if_pos readable]
                cases read entry.fd with
                | error => rfl
                | eof => exact closing
                | data buf =>
                    dsimp only
                    cases server.client[i]? with
                    | none => rfl
                    | some slot =>
                        rw [Option.bind_some, Option.bind_some, record_fst]
                        exact passLog_fst fewer
              · rw [if_neg readable, if_neg readable]
                exact passLog_fst fewer
      · have none : server.numfd - i = 0 := by omega
        rw [if_neg more, none]
        rfl

theorem loopLog_fst (server : Server) (poll : Poll) (used : 0 < server.numfd) :
    (loopLog server poll).map Prod.fst = loopOnce server poll := by
  have passes : ∀ between : Server, 0 < between.numfd →
      (passLog poll.read between.numfd 1 between).map Prod.fst =
        pass poll.read (between.numfd - 1) 1 between := fun between used => passLog_fst (by omega)
  rw [loopLog, loopOnce, Server.beforePass]
  by_cases listening : (poll.revents 0).pollin = true
  · simp only [if_pos listening]
    cases poll.accept with
    | none => rfl
    | some new => exact passes _ (Nat.succ_pos _)
  · simp only [if_neg listening]
    exact passes _ used

/-! ## The client table -/

/-- The descriptors of the entries in use. -/
def used (client : List Client) : List Int := (client.map Client.fd).filter (· ≠ -1)

theorem used_append (front back : List Client) : used (front ++ back) = used front ++ used back := by
  rw [used, List.map_append, List.filter_append]
  rfl

theorem used_cons {entry : Client} (inUse : entry.fd ≠ -1) (rest : List Client) :
    used (entry :: rest) = entry.fd :: used rest := by
  have keeps : decide (entry.fd ≠ -1) = true := decide_eq_true inUse
  exact List.filter_cons_of_pos keeps

theorem used_cons_free {entry : Client} (isFree : entry.fd = -1) (rest : List Client) :
    used (entry :: rest) = used rest := by
  have drops : ¬ decide (entry.fd ≠ -1) = true := by
    rw [isFree]
    decide
  exact List.filter_cons_of_neg drops

theorem used_length (client : List Client) : (used client).length ≤ client.length := by
  rw [← List.length_map Client.fd]
  exact List.length_filter_le _ _

/-- The table around the first entry that `findIdx?` finds. -/
theorem exists_split {client : List Client} {found : Client → Bool} {i : Nat}
    (isFound : client.findIdx? found = some i) :
    ∃ front entry back, client = front ++ entry :: back ∧ front.length = i ∧ found entry = true := by
  rcases List.findIdx?_eq_some_iff_getElem.mp isFound with ⟨inside, holds, _⟩
  refine ⟨client.take i, client[i], client.drop (i + 1), ?_, List.length_take_of_le (Nat.le_of_lt inside), holds⟩
  rw [← List.drop_eq_getElem_cons inside, List.take_append_drop]

theorem used_clientAdd (client : List Client) {fd : Int} (valid : fd ≠ -1) (uid : Nat) :
    (used (clientAdd client fd uid).1).Perm (fd :: used client) := by
  rw [clientAdd]
  cases isFree : client.findIdx? fun entry => decide (entry.fd = -1) with
  | some i =>
      rcases exists_split isFree with ⟨front, entry, back, rfl, rfl, free⟩
      dsimp only
      rw [List.set_append_right _ _ (Nat.le_refl _), Nat.sub_self, List.set_cons_zero, used_append,
        used_append, used_cons valid, used_cons_free (of_decide_eq_true free)]
      exact List.perm_middle
  | none =>
      have spare : ∀ count, used (List.replicate count { fd := -1, uid := Option.none }) = [] := by
        intro count
        rw [used, List.map_replicate, List.filter_replicate_of_neg (by decide)]
      dsimp only
      rw [clientAlloc, NALLOC, List.replicate_succ, List.set_append_right _ _ (Nat.le_refl _),
        Nat.sub_self, List.set_cons_zero, used_append, used_cons valid, spare]
      exact List.perm_append_singleton _ _

theorem used_clientDel {client : List Client} {fd : Int} (valid : fd ≠ -1)
    (member : fd ∈ used client) :
    ∃ after, clientDel client fd = some after ∧ (fd :: used after).Perm (used client) := by
  rcases List.mem_map.mp (List.mem_filter.mp member).1 with ⟨entry, inside, isFd⟩
  rw [clientDel]
  cases isFound : client.findIdx? fun entry => decide (entry.fd = fd) with
  | none =>
      rw [List.findIdx?_eq_none_iff] at isFound
      exact absurd isFd (of_decide_eq_false (isFound entry inside))
  | some i =>
      rcases exists_split isFound with ⟨front, entry, back, rfl, rfl, isEntry⟩
      have sameFd : entry.fd = fd := of_decide_eq_true isEntry
      have freed : used ({ entry with fd := -1 } :: back) = used back := used_cons_free rfl back
      have kept : used (entry :: back) = fd :: used back := by
        rw [used_cons (by rw [sameFd]; exact valid), sameFd]
      refine ⟨_, rfl, ?_⟩
      dsimp only
      rw [List.modify_eq_take_drop]
      simp only [List.take_left, List.drop_left, List.modifyHead_cons]
      rw [used_append, used_append, freed, kept]
      exact List.perm_middle.symm

/-! ## The invariant -/

/-- The entries in use stand in front, each with its own descriptor, which is in the client table.
Behind the listening descriptor they are those of the open connections. -/
structure Packed (server : Server) (active spare : List PollFd) : Prop where
  pollfd : server.pollfd = active ++ spare
  numfd : server.numfd = active.length
  nonempty : active ≠ []
  distinct : (active.map PollFd.fd).Nodup
  opened : ∀ fd ∈ active.map PollFd.fd, 0 ≤ fd
  client : (used server.client).Perm (active.map PollFd.fd)
  connected : ∀ fd, fd ∈ (active.map PollFd.fd).tail ↔ (server.accepted fd).isSome = true

section Packed

variable {server : Server} {active spare front rest : List PollFd} {entry : PollFd}

theorem Packed.initial {listenfd : Int} (valid : 0 ≤ listenfd) :
    Packed (.initial listenfd) [{ fd := listenfd, revents := .none }] (List.replicate 9 .unused) where
  pollfd := rfl
  numfd := rfl
  nonempty := List.cons_ne_nil _ _
  distinct := List.nodup_singleton _
  opened := by
    intro fd member
    rw [List.mem_singleton.mp member]
    exact valid
  client := used_clientAdd [] (by omega) 0
  connected := fun fd => ⟨nofun, nofun⟩

theorem Packed.polled (packed : Packed server active spare) (revents : Nat → Revents) :
    ∃ active' spare', Packed (server.polled revents) active' spare' ∧
      active'.map PollFd.fd = active.map PollFd.fd := by
  let write (i : Nat) (entry : PollFd) : PollFd :=
    if i < server.numfd then { entry with revents := revents i } else entry
  have keepsFd : ∀ i entry, (write i entry).fd = entry.fd := by
    intro i entry
    by_cases inUse : i < server.numfd
    · simp only [write, if_pos inUse]
    · simp only [write, if_neg inUse]
  have sameFds : (active.mapIdx write).map PollFd.fd = active.map PollFd.fd := by
    apply List.ext_getElem
    · simp
    · intro i _ _
      simp [keepsFd]
  refine ⟨active.mapIdx write, spare.mapIdx fun i entry => write (i + active.length) entry, ?_, sameFds⟩
  constructor
  case pollfd => simp [Server.polled, packed.pollfd, List.mapIdx_append, write]
  case numfd =>
    rw [List.length_mapIdx]
    exact packed.numfd
  case nonempty =>
    intro isNil
    rw [isNil] at sameFds
    exact packed.nonempty (List.map_eq_nil_iff.mp sameFds.symm)
  case distinct =>
    rw [sameFds]
    exact packed.distinct
  case opened =>
    rw [sameFds]
    exact packed.opened
  case client =>
    rw [sameFds]
    exact packed.client
  case connected =>
    rw [sameFds]
    exact packed.connected

/-- There is a place for a new entry, which may have to be allocated. -/
theorem Packed.room (packed : Packed server active spare) :
    ∃ slot rest, (if server.numfd = server.pollfd.length then growPollfd server.pollfd
      else server.pollfd) = active ++ slot :: rest := by
  rw [packed.pollfd, packed.numfd]
  cases spare with
  | nil =>
      rw [List.append_nil, if_pos rfl, growPollfd, NALLOC, List.replicate_succ]
      exact ⟨_, _, rfl⟩
  | cons slot rest =>
      rw [if_neg (by simp)]
      exact ⟨slot, rest, rfl⟩

theorem Packed.accept (packed : Packed server active spare) {clifd : Int} (uid : Nat)
    (valid : 0 ≤ clifd) (fresh : clifd ∉ active.map PollFd.fd) :
    ∃ spare', Packed (server.accept clifd uid) (active ++ [{ fd := clifd, revents := .none }])
      spare' := by
  rcases packed.room with ⟨slot, rest, room⟩
  refine ⟨rest, ?_⟩
  constructor
  case pollfd =>
    simp only [Server.accept]
    rw [room, packed.numfd, List.set_append_right _ _ (Nat.le_refl _), Nat.sub_self,
      List.set_cons_zero, List.append_assoc, List.singleton_append]
  case numfd =>
    rw [List.length_append, List.length_singleton, ← packed.numfd]
    rfl
  case nonempty => exact List.append_ne_nil_of_right_ne_nil _ (List.cons_ne_nil _ _)
  case distinct =>
    rw [List.map_append]
    refine List.nodup_append.mpr ⟨packed.distinct, List.nodup_singleton _, ?_⟩
    rintro fd member _ isNew rfl
    rw [List.map_singleton, List.mem_singleton] at isNew
    rw [isNew] at member
    exact fresh member
  case opened =>
    intro fd member
    rw [List.map_append] at member
    rcases List.mem_append.mp member with old | isNew
    · exact packed.opened fd old
    · rw [List.mem_singleton.mp isNew]
      exact valid
  case client =>
    rw [List.map_append]
    apply (used_clientAdd server.client (by omega) uid).trans
    exact (packed.client.cons clifd).trans (List.perm_append_singleton _ _).symm
  case connected =>
    intro fd
    have someActive : active.map PollFd.fd ≠ [] := fun isNil =>
      packed.nonempty (List.map_eq_nil_iff.mp isNil)
    rw [List.map_append, List.tail_append_of_ne_nil someActive, List.mem_append, packed.connected]
    simp only [Server.accept, List.map_singleton, List.mem_singleton]
    by_cases isNew : fd = clifd
    · rw [if_pos isNew]
      exact ⟨fun _ => rfl, fun _ => Or.inr isNew⟩
    · rw [if_neg isNew]
      exact ⟨fun either => either.resolve_right isNew, Or.inl⟩

/-- The variables of the server behind the end of a connection. -/
def Server.closed (server : Server) (client : List Client) (fd : Int) (pollfd : List PollFd) : Server :=
  { server with
    client := client
    pollfd := pollfd
    accepted := fun other => if other = fd then none else server.accepted other
    numfd := server.numfd - 1 }

/-- An entry is gone, and those behind it have another order. -/
theorem Packed.close {moved spare' pollfd : List PollFd} {client : List Client}
    (packed : Packed server (front ++ entry :: rest) spare) (listening : front ≠ [])
    (shorter : (entry.fd :: used client).Perm (used server.client)) (reordered : moved.Perm rest)
    (split : pollfd = front ++ moved ++ spare') :
    Packed (server.closed client entry.fd pollfd) (front ++ moved) spare' := by
  have distinct := packed.distinct
  rw [List.map_append, List.map_cons] at distinct
  have fewer : ((front ++ entry :: rest).map PollFd.fd).Perm
      (entry.fd :: (front ++ moved).map PollFd.fd) := by
    rw [List.map_append, List.map_append, List.map_cons]
    exact List.perm_middle.trans (((reordered.map _).symm.append_left _).cons _)
  have frontFds : front.map PollFd.fd ≠ [] := fun isNil => listening (List.map_eq_nil_iff.mp isNil)
  constructor
  case pollfd => exact split
  case numfd =>
    have count := packed.numfd
    rw [List.length_append, List.length_cons] at count
    rw [List.length_append, reordered.length_eq]
    change server.numfd - 1 = _
    omega
  case nonempty => exact List.append_ne_nil_of_left_ne_nil listening _
  case distinct => exact (List.nodup_cons.mp (fewer.nodup packed.distinct)).2
  case opened =>
    intro fd member
    exact packed.opened fd (fewer.mem_iff.mpr (List.mem_cons_of_mem _ member))
  case client => exact (shorter.trans (packed.client.trans fewer)).cons_inv
  case connected =>
    intro fd
    have before := packed.connected fd
    rw [List.map_append, List.tail_append_of_ne_nil frontFds, List.map_cons] at before
    have among : fd ∈ (front.map PollFd.fd).tail ++ entry.fd :: rest.map PollFd.fd ↔
        fd = entry.fd ∨ fd ∈ (front.map PollFd.fd).tail ++ moved.map PollFd.fd := by
      rw [List.mem_append, List.mem_cons, List.mem_append, (reordered.map _).mem_iff]
      exact or_left_comm
    rw [List.map_append, List.tail_append_of_ne_nil frontFds]
    change _ ↔ (if fd = entry.fd then none else server.accepted fd).isSome = true
    by_cases isClosed : fd = entry.fd
    · rw [if_pos isClosed]
      refine ⟨fun member => ?_, nofun⟩
      have gone := (List.nodup_cons.mp (fewer.nodup packed.distinct)).1
      rw [← isClosed, List.map_append] at gone
      rcases List.mem_append.mp member with inFront | behind
      · exact absurd (List.mem_append_left _ (List.mem_of_mem_tail inFront)) gone
      · exact absurd (List.mem_append_right _ behind) gone
    · rw [if_neg isClosed, ← before, among]
      exact ⟨Or.inr, fun either => either.resolve_left isClosed⟩

theorem Packed.hungup (packed : Packed server (front ++ entry :: rest) spare)
    (listening : front ≠ []) :
    ∃ client after, server.hungup front.length entry = some after ∧
      ((rest = [] ∧ after = (server.closed client entry.fd server.pollfd, front.length + 1) ∧
          Packed after.1 front (entry :: spare)) ∨
        ∃ middle last, rest = middle ++ [last] ∧ after.2 = front.length ∧
          Packed after.1 (front ++ last :: middle) (last :: spare)) := by
  have isActive : entry.fd ∈ (front ++ entry :: rest).map PollFd.fd :=
    List.mem_map_of_mem (List.mem_append_right _ List.mem_cons_self)
  have valid : entry.fd ≠ -1 := by
    have positive := packed.opened _ isActive
    omega
  rcases used_clientDel valid (packed.client.mem_iff.mpr isActive) with ⟨client, deleted, shorter⟩
  have count := packed.numfd
  rw [List.length_append, List.length_cons] at count
  have wholeArray := packed.pollfd
  rcases List.eq_nil_or_concat rest with rfl | ⟨middle, last, rfl⟩
  · refine ⟨client, (server.closed client entry.fd server.pollfd, front.length + 1), ?_,
      Or.inl ⟨rfl, rfl, ?_⟩⟩
    · rw [Server.hungup, deleted]
      have isLast : ¬ front.length < server.numfd - 1 := by
        rw [count, List.length_nil]
        omega
      simp only [Option.bind_eq_bind, Option.bind_some, if_neg isLast]
      rfl
    · have split : server.pollfd = front ++ [] ++ entry :: spare := by
        rw [wholeArray, List.append_nil, List.append_assoc, List.singleton_append]
      have closed := packed.close listening shorter (List.Perm.refl []) split
      rw [List.append_nil] at closed
      exact closed
  · rw [List.concat_eq_append] at *
    rw [List.length_append, List.length_singleton] at count
    have inside : front.length < server.numfd - 1 := by omega
    have atLast : server.pollfd[server.numfd - 1]? = some last := by
      have regrouped : front ++ entry :: (middle ++ [last]) ++ spare =
          (front ++ entry :: middle) ++ last :: spare := by
        simp only [List.append_assoc, List.cons_append, List.nil_append]
      have index : server.numfd - 1 = (front ++ entry :: middle).length := by
        rw [count, List.length_append, List.length_cons]
        omega
      rw [wholeArray, regrouped, index, List.getElem?_append_right (Nat.le_refl _), Nat.sub_self]
      rfl
    refine ⟨client, (server.closed client entry.fd (server.pollfd.set front.length last),
      front.length), ?_, Or.inr ⟨middle, last, rfl, rfl, ?_⟩⟩
    · rw [Server.hungup, deleted]
      simp only [Option.bind_eq_bind, Option.bind_some, if_pos inside, atLast]
      rfl
    · apply packed.close listening shorter
      · exact (List.perm_append_singleton _ _).symm
      · rw [wholeArray, List.append_assoc, List.set_append_right _ _ (Nat.le_refl _), Nat.sub_self]
        simp

theorem Packed.handle (packed : Packed server active spare) (requests : List Request) :
    Packed { server with handled := requests } active spare where
  pollfd := packed.pollfd
  numfd := packed.numfd
  nonempty := packed.nonempty
  distinct := packed.distinct
  opened := packed.opened
  client := packed.client
  connected := packed.connected

theorem Packed.slot (packed : Packed server (front ++ entry :: rest) spare) :
    ∃ slot, server.client[front.length]? = some slot := by
  have count := packed.client.length_eq
  have room := used_length server.client
  rw [List.length_map, List.length_append, List.length_cons] at count
  exact ⟨_, List.getElem?_eq_getElem (by omega)⟩

end Packed

/-! ## The pass -/

/-- What has to be done to an entry. -/
def handling (read : Int → ReadResult) (entry : PollFd) : Option Handling :=
  if entry.revents.pollhup then some (.closed entry.fd)
  else if entry.revents.pollin then
    match read entry.fd with
    | .error => none
    | .eof => some (.closed entry.fd)
    | .data buf => some (.requested entry.fd buf)
  else none

/-- A read on an entry that is readable gives data or the end of the file. -/
def ReadsInput (read : Int → ReadResult) (entry : PollFd) : Prop :=
  entry.revents.pollhup = false → entry.revents.pollin = true → read entry.fd ≠ .error

/-- The loop comes to its end with what it has done to the entries. -/
def Passes (read : Int → ReadResult) (pending : List PollFd) (rounds i : Nat) (server : Server) :
    Prop :=
  ∃ last log, passLog read rounds i server = some (last, log) ∧
    log.Perm (pending.filterMap (handling read)) ∧ ∃ active spare, Packed last active spare

section Pass

variable {read : Int → ReadResult} {server : Server} {front pending rest spare : List PollFd}
  {entry : PollFd} {rounds i : Nat}

theorem Passes.record {done : Handling} (passes : Passes read rest rounds i server)
    (isDone : handling read entry = some done) :
    ∃ last log, record done (passLog read rounds i server) = some (last, log) ∧
      log.Perm ((entry :: rest).filterMap (handling read)) ∧
      ∃ active spare, Packed last active spare := by
  rcases passes with ⟨last, log, passed, all, packed⟩
  refine ⟨last, done :: log, ?_, ?_, packed⟩
  · rw [Opend.record, passed]
    rfl
  · rw [List.filterMap_cons, isDone]
    exact all.cons done

/-- The pass over the entries behind `front`, where the number of rounds is the induction. -/
theorem passes_pending :
    ∀ (rounds : Nat) {pending front spare : List PollFd} {server : Server},
      Packed server (front ++ pending) spare → front ≠ [] → pending.length < rounds →
      (∀ entry ∈ pending, ReadsInput read entry) →
      Passes read pending rounds front.length server
  | 0, _, _, _, _, _, _, enough, _ => absurd enough (Nat.not_lt_zero _)
  | rounds + 1, [], front, spare, server, packed, _, _, _ => by
      have count := packed.numfd
      rw [List.append_nil] at count packed
      have ended : ¬ front.length < server.numfd := by omega
      refine ⟨server, [], ?_, List.Perm.nil, front, spare, packed⟩
      rw [passLog, if_neg ended]
  | rounds + 1, entry :: rest, front, spare, server, packed, listening, enough, readable => by
      have count := packed.numfd
      rw [List.length_append, List.length_cons] at count
      rw [List.length_cons] at enough
      have inUse : front.length < server.numfd := by omega
      have atEntry : server.pollfd[front.length]? = some entry := by
        rw [packed.pollfd, List.append_assoc, List.getElem?_append_right (Nat.le_refl _), Nat.sub_self]
        rfl
      have restReadable : ∀ other ∈ rest, ReadsInput read other := fun other member =>
        readable other (List.mem_cons_of_mem _ member)
      have regrouped : front ++ entry :: rest = (front ++ [entry]) ++ rest := by
        rw [List.append_assoc, List.singleton_append]
      have index : (front ++ [entry]).length = front.length + 1 := by
        rw [List.length_append, List.length_singleton]
      have advance : ∀ next : Server, Packed next (front ++ entry :: rest) spare →
          Passes read rest rounds (front.length + 1) next := by
        intro next nextPacked
        rw [regrouped] at nextPacked
        rw [← index]
        exact passes_pending rounds nextPacked (List.append_ne_nil_of_left_ne_nil listening _)
          (by omega) restReadable
      have close : handling read entry = some (.closed entry.fd) → ∃ last log,
          ((server.hungup front.length entry).bind fun after =>
            record (.closed entry.fd) (passLog read rounds after.2 after.1)) = some (last, log) ∧
          log.Perm ((entry :: rest).filterMap (handling read)) ∧
          ∃ active spare, Packed last active spare := by
        intro isClosed
        rcases packed.hungup listening with
          ⟨client, after, closes, ⟨rfl, rfl, closed⟩ | ⟨middle, last, rfl, sameIndex, closed⟩⟩
        · have ended : Passes read [] rounds (front.length + 1)
              (server.closed client entry.fd server.pollfd) := by
            cases rounds with
            | zero => exact absurd enough (Nat.lt_irrefl _)
            | succ rounds =>
                have beyond : ¬ front.length + 1 <
                    (server.closed client entry.fd server.pollfd).numfd := by
                  rw [closed.numfd]
                  omega
                refine ⟨_, [], ?_, List.Perm.nil, front, _, closed⟩
                rw [passLog, if_neg beyond]
          rw [closes]
          exact ended.record isClosed
        · have moved : Passes read (last :: middle) rounds front.length after.1 := by
            apply passes_pending rounds closed listening
            · rw [List.length_cons]
              rw [List.length_append, List.length_singleton] at enough
              omega
            · intro other member
              apply restReadable
              rcases List.mem_cons.mp member with rfl | inside
              · exact List.mem_append_right _ List.mem_cons_self
              · exact List.mem_append_left _ inside
          have inOrder : Passes read (middle ++ [last]) rounds front.length after.1 := by
            rcases moved with ⟨final, log, passed, all, stillPacked⟩
            exact ⟨final, log, passed,
              all.trans ((List.perm_append_singleton last middle).symm.filterMap _), stillPacked⟩
          rw [closes, Option.bind_some, sameIndex]
          exact inOrder.record isClosed
      rw [Passes, passLog, if_pos inUse, atEntry]
      simp only [Option.bind_eq_bind, Option.bind_some]
      by_cases hup : entry.revents.pollhup = true
      · rw [if_pos hup]
        exact close (if_pos hup)
      · rw [if_neg hup]
        by_cases isReadable : entry.revents.pollin = true
        · rw [if_pos isReadable]
          cases result : read entry.fd with
          | error =>
              exact absurd result (readable entry List.mem_cons_self (eq_false_of_ne_true hup)
                isReadable)
          | eof =>
              exact close (by rw [handling, if_neg hup, if_pos isReadable, result])
          | data buf =>
              have isHandled : handling read entry = some (.requested entry.fd buf) := by
                rw [handling, if_neg hup, if_pos isReadable, result]
              rcases packed.slot with ⟨slot, atSlot⟩
              simp only [atSlot, Option.bind_some]
              exact (advance _ (packed.handle _)).record isHandled
        · rw [if_neg isReadable]
          have isIdle : handling read entry = none := by
            rw [handling, if_neg hup, if_neg isReadable]
          rcases advance server packed with ⟨last, log, passed, all, stillPacked⟩
          refine ⟨last, log, passed, ?_, stillPacked⟩
          rw [List.filterMap_cons, isIdle]
          exact all

end Pass

/-! ## Whole runs -/

/-- The entries that are in use, without the listening descriptor. -/
def Server.clients (server : Server) : List PollFd := (server.pollfd.take server.numfd).tail

/-- Behind the listening descriptor stand exactly the open connections, each once, and inside the
array. -/
structure Positions (server : Server) : Prop where
  inside : server.numfd ≤ server.pollfd.length
  once : (server.clients.map PollFd.fd).Nodup
  connected : ∀ fd, fd ∈ server.clients.map PollFd.fd ↔ (server.accepted fd).isSome = true

/-- `accept` gives a descriptor that is not in use where a client wants to connect, and reads of
the entries that are readable give data or the end of the file. -/
structure Serving (server : Server) (poll : Poll) : Prop where
  granted : Granted server poll
  accepts : (poll.revents 0).pollin = true → poll.accept.isSome = true
  readable : ∀ between ∈ server.beforePass poll, ∀ entry ∈ between.clients,
    ReadsInput poll.read entry

/-- The pass over the entries handles each one that `poll` has reported, and none twice. -/
def HandlesEach (server : Server) (poll : Poll) : Prop :=
  ∃ between last log, server.beforePass poll = some between ∧ loopLog server poll = some (last, log) ∧
    log.Perm (between.clients.filterMap (handling poll.read)) ∧
    (between.clients.map PollFd.fd).Nodup

section Runs

variable {server : Server} {poll : Poll} {active spare : List PollFd}

theorem Packed.clients_eq (packed : Packed server active spare) : server.clients = active.tail := by
  rw [Server.clients, packed.pollfd, packed.numfd, List.take_left]

theorem Packed.positions (packed : Packed server active spare) : Positions server where
  inside := by
    rw [packed.pollfd, packed.numfd, List.length_append]
    exact Nat.le_add_right _ _
  once := by
    rw [packed.clients_eq, List.map_tail]
    exact packed.distinct.tail
  connected := by
    rw [packed.clients_eq, List.map_tail]
    exact packed.connected

theorem Packed.beforePass (packed : Packed server active spare) (serving : Serving server poll) :
    ∃ between active' spare', server.beforePass poll = some between ∧
      Packed between active' spare' := by
  rcases packed.polled poll.revents with ⟨active', spare', polled, sameFds⟩
  rw [Server.beforePass]
  by_cases listening : (poll.revents 0).pollin = true
  · rcases Option.isSome_iff_exists.mp (serving.accepts listening) with ⟨⟨clifd, uid⟩, accepts⟩
    rcases serving.granted clifd uid accepts with ⟨valid, unused⟩
    have fresh : clifd ∉ active'.map PollFd.fd := by
      intro member
      rw [sameFds] at member
      rcases List.mem_map.mp member with ⟨entry, inside, isFd⟩
      apply unused entry _ isFd
      rw [packed.pollfd, packed.numfd, List.take_left]
      exact inside
    rcases polled.accept uid valid fresh with ⟨spare'', accepted⟩
    simp only [if_pos listening, accepts, Option.map_some]
    exact ⟨_, _, spare'', rfl, accepted⟩
  · simp only [if_neg listening]
    exact ⟨_, active', spare', rfl, polled⟩

theorem Packed.loopLog (packed : Packed server active spare) (serving : Serving server poll) :
    HandlesEach server poll ∧ ∃ next active' spare', loopOnce server poll = some next ∧
      Packed next active' spare' := by
  rcases packed.beforePass serving with ⟨between, active', spare', isBetween, packedBetween⟩
  rcases List.exists_cons_of_ne_nil packedBetween.nonempty with ⟨first, pending, rfl⟩
  have count := packedBetween.numfd
  rw [List.length_cons] at count
  have clients := packedBetween.clients_eq
  rw [List.tail_cons] at clients
  have passes : Passes poll.read pending between.numfd [first].length between := by
    apply passes_pending between.numfd packedBetween (List.cons_ne_nil _ _) (by omega)
    intro entry member
    apply serving.readable between isBetween entry
    rw [clients]
    exact member
  rcases passes with ⟨last, log, passed, all, active'', spare'', packedLast⟩
  have looped : Opend.loopLog server poll = some (last, log) := by
    rw [Opend.loopLog, isBetween]
    exact passed
  refine ⟨⟨between, last, log, isBetween, looped, ?_, packedBetween.positions.once⟩, last, active'',
    spare'', ?_, packedLast⟩
  · rw [clients]
    exact all
  · have used : 0 < server.numfd := by
      rw [packed.numfd]
      exact List.length_pos_of_ne_nil packed.nonempty
    rw [← loopLog_fst server poll used, looped]
    rfl

end Runs

theorem serving_connect {server : Server} {clifd : Int} {uid : Nat} (valid : 0 ≤ clifd)
    (unused : ∀ entry ∈ server.pollfd.take server.numfd, entry.fd ≠ clifd) :
    Serving server (.connect clifd uid) where
  granted := by
    intro other otherUid accepts
    cases accepts
    exact ⟨valid, unused⟩
  accepts := fun _ => rfl
  readable := fun _ _ _ _ _ _ => nofun

theorem serving_hangup {server : Server} {i : Nat} (behind : 0 < i) :
    Serving server (.hangup i) where
  granted := fun _ _ => nofun
  accepts := by
    have idle : (Poll.hangup i).revents 0 = Revents.none := if_neg (Nat.ne_of_lt behind)
    rw [idle]
    exact nofun
  readable := fun _ _ _ _ _ _ => nofun

end Apue.Opend
