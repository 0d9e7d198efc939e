import Apue.Foundation.Run
import Apue.Opend.PollLoop
import Mathlib.Data.Finset.Basic

/-! # The select-based loop of the open server

`loop` of `ipc2/opend/loop.select.c` keeps its descriptors in `allset`, and looks
for those that are ready along the client table, whose entries never move.
-/

namespace Apue.Opend.Select

open Apue.Foundation

def FD_SETSIZE : Int := 1024

/-- `FD_SET`, which writes behind the set for other descriptors. -/
def fdSet (fd : Int) (set : Finset Int) : Option (Finset Int) :=
  if 0 ≤ fd ∧ fd < FD_SETSIZE then some (insert fd set) else none

/-- What the loop does with a client that is ready: it closes the connection, or
it calls `handle_request`. `uid` is the user ID in the client's entry. -/
structure Handling where
  fd : Int
  uid : Option Nat
  request : Option (List UInt8)
  deriving DecidableEq, Repr

/-- The variables of `loop`, and below them a history: the user ID with which
each open connection was accepted, and what was done with the clients. -/
structure Server where
  listenfd : Int
  client : List Client
  allset : Finset Int
  maxfd : Int
  maxi : Int
  accepted : Int → Option Nat
  handled : List Handling

/-- What one iteration meets: the descriptors that can be read, what `serv_accept`
returns if it is called, what `read` returns, and whether `handle_request` returns
or ends the server. -/
structure Iteration where
  readable : Int → Bool
  accept : Option (Int × Nat)
  read : Int → ReadResult
  returns : Int → Bool

def Server.initial (listenfd : Int) : Server where
  listenfd := listenfd
  client := []
  allset := (fdSet listenfd ∅).getD ∅
  maxfd := listenfd
  maxi := -1
  accepted := fun _ => none
  handled := []

/-- What `select` leaves of `allset`. It does not look behind `maxfd`. -/
def Server.rset (server : Server) (iteration : Iteration) : Finset Int :=
  server.allset.filter fun fd => fd < server.maxfd + 1 ∧ iteration.readable fd = true

/-- The part of the loop that takes a new connection. -/
def Server.accept (server : Server) (clifd : Int) (uid : Nat) : Option Server := do
  let added := clientAdd server.client clifd uid
  let allset ← fdSet clifd server.allset
  return { server with
    client := added.1
    allset := allset
    maxfd := if clifd > server.maxfd then clifd else server.maxfd
    maxi := if (added.2 : Int) > server.maxi then added.2 else server.maxi
    accepted := fun fd => if fd = clifd then some uid else server.accepted fd }

/-- The part of the loop that closes a connection. -/
def Server.close (server : Server) (clifd : Int) : Option Server := do
  let client ← clientDel server.client clifd
  return { server with
    client := client
    allset := server.allset.erase clifd
    accepted := fun fd => if fd = clifd then none else server.accepted fd }

def Server.note (server : Server) (handling : Handling) : Server :=
  { server with handled := server.handled ++ [handling] }

/-- The body of the `for` loop. `none` when the server exits. -/
def visit (rset : Finset Int) (iteration : Iteration) (server : Server) (i : Nat) :
    Option Server := do
  let entry ← server.client[i]?
  if entry.fd < 0 then
    return server
  if entry.fd ∈ rset then
    match iteration.read entry.fd with
    | .error => none
    | .eof => (server.note ⟨entry.fd, entry.uid, none⟩).close entry.fd
    | .data buf =>
        if iteration.returns entry.fd then
          return server.note ⟨entry.fd, entry.uid, some buf⟩
        else
          none
  else
    return server

/-- One iteration of the endless loop. -/
def loopOnce (server : Server) (iteration : Iteration) : Option Server :=
  let rset := server.rset iteration
  if server.listenfd ∈ rset then
    iteration.accept.bind fun accepted => server.accept accepted.1 accepted.2
  else
    (List.range (server.maxi + 1).toNat).foldlM (visit rset iteration) server

/-! ## The set, the table and the connections -/

/-- `allset` and the client table tell which clients are connected. -/
structure Consistent (server : Server) : Prop where
  allset : ∀ fd, fd ∈ server.allset ↔ fd = server.listenfd ∨ (server.accepted fd).isSome = true
  entry : ∀ fd uid, server.accepted fd = some uid → ∃ i : Nat, i ≤ server.maxi ∧
    server.client[i]? = some ⟨fd, some uid⟩ ∧
    ∀ j other, server.client[j]? = some other → other.fd = fd → j = i
  maxfd : ∀ fd ∈ server.allset, fd ≤ server.maxfd

/-- Every entry in use is that of a connection, and the others are free. -/
structure Bookkept (server : Server) : Prop extends Consistent server where
  listening : 0 ≤ server.listenfd ∧ server.accepted server.listenfd = none
  opened : ∀ fd uid, server.accepted fd = some uid → 0 ≤ fd
  used : ∀ (i : Nat) entry, server.client[i]? = some entry → entry.fd = -1 ∨
    ∃ uid, server.accepted entry.fd = some uid ∧ entry.uid = some uid ∧ i ≤ server.maxi
  bound : -1 ≤ server.maxi ∧ server.maxi < server.client.length

/-- The kernel hands out a descriptor that is not in use. -/
def Granted (server : Server) (iteration : Iteration) : Prop :=
  ∀ clifd uid, iteration.accept = some (clifd, uid) →
    0 ≤ clifd ∧ clifd < FD_SETSIZE ∧ clifd ≠ server.listenfd ∧ server.accepted clifd = none

instance (server : Server) (iteration : Iteration) : Decidable (Granted server iteration) :=
  decidable_of_iff (∀ accepted ∈ iteration.accept, 0 ≤ accepted.1 ∧ accepted.1 < FD_SETSIZE ∧
      accepted.1 ≠ server.listenfd ∧ server.accepted accepted.1 = none)
    ⟨fun all clifd uid same => all (clifd, uid) same, fun granted accepted same =>
      granted accepted.1 accepted.2 same⟩

/-! ## A new connection -/

theorem Bookkept.initial {listenfd : Int} (valid : 0 ≤ listenfd ∧ listenfd < FD_SETSIZE) :
    Bookkept (.initial listenfd) where
  allset := by simp [Server.initial, fdSet, valid]
  entry := fun _ _ there => nomatch there
  maxfd := by simp [Server.initial, fdSet, valid]
  listening := ⟨valid.1, rfl⟩
  opened := fun _ _ there => nomatch there
  used := by simp [Server.initial]
  bound := by simp [Server.initial]

/-- The new entry takes the place of a free one. -/
theorem clientAdd_spec (client : List Client) (fd : Int) (uid : Nat) :
    ∃ (base : List Client) (free : Client) (i : Nat), clientAdd client fd uid =
        (base.set i ⟨fd, some uid⟩, i) ∧ base[i]? = some free ∧ free.fd = -1 ∧
      (∀ (j : Nat) entry, client[j]? = some entry → base[j]? = some entry) ∧
      ∀ (j : Nat) entry, base[j]? = some entry → client[j]? = some entry ∨ entry.fd = -1 := by
  rw [clientAdd]
  cases found : client.findIdx? fun entry => decide (entry.fd = -1) with
  | some i =>
      rcases List.findIdx?_eq_some_iff_getElem.mp found with ⟨inside, free, _⟩
      exact ⟨client, client[i], i, rfl, List.getElem?_eq_getElem inside, by simpa using free,
        fun _ _ there => there, fun _ _ there => Or.inl there⟩
  | none =>
      refine ⟨clientAlloc client, ⟨-1, none⟩, client.length, rfl, ?_, rfl, ?_, ?_⟩
      · rw [clientAlloc, List.getElem?_append_right (le_refl _), Nat.sub_self]
        rfl
      · intro j entry there
        rw [clientAlloc, List.getElem?_append_left (List.getElem?_eq_some_iff.mp there).1, there]
      · intro j entry there
        rw [clientAlloc, List.getElem?_append] at there
        split at there
        · exact Or.inl there
        · right
          rw [List.eq_of_mem_replicate (List.mem_of_getElem? there)]

theorem fdSet_eq_some {fd : Int} {set after : Finset Int} (done : fdSet fd set = some after) :
    after = insert fd set := by
  rw [fdSet] at done
  split at done
  · exact (Option.some.inj done).symm
  · cases done

theorem Bookkept.accept {server after : Server} {clifd : Int} {uid : Nat}
    (bookkept : Bookkept server) (nonneg : 0 ≤ clifd) (notListening : clifd ≠ server.listenfd)
    (unused : server.accepted clifd = none) (accepted : server.accept clifd uid = some after) :
    Bookkept after := by
  rw [Server.accept] at accepted
  rcases Option.bind_eq_some_iff.mp accepted with ⟨allset, isSet, same⟩
  cases Option.some.inj same
  cases fdSet_eq_some isSet
  rcases clientAdd_spec server.client clifd uid with
    ⟨base, free, i, added, atFree, isFree, kept, fresh⟩
  have inside : i < base.length := (List.getElem?_eq_some_iff.mp atFree).1
  have longer : server.client.length ≤ base.length := by
    by_contra shorter
    have there := kept base.length _ (List.getElem?_eq_getElem (by omega))
    rw [List.getElem?_eq_none (le_refl _)] at there
    cases there
  have bound := bookkept.bound
  have lookup : ∀ (j : Nat) entry, (base.set i ⟨clifd, some uid⟩)[j]? = some entry →
      j = i ∧ entry = ⟨clifd, some uid⟩ ∨ j ≠ i ∧ (server.client[j]? = some entry ∨ entry.fd = -1) := by
    intro j entry there
    rw [List.getElem?_set] at there
    by_cases same : i = j
    · subst same
      rw [if_pos rfl, if_pos inside] at there
      exact Or.inl ⟨rfl, (Option.some.inj there).symm⟩
    · rw [if_neg same] at there
      exact Or.inr ⟨Ne.symm same, fresh j entry there⟩
  have connected : ∀ fd uid', (if fd = clifd then some uid else server.accepted fd) = some uid' →
      fd = clifd ∧ uid' = uid ∨ fd ≠ clifd ∧ server.accepted fd = some uid' := by
    intro fd uid' there
    split at there
    · rename_i same
      exact Or.inl ⟨same, (Option.some.inj there).symm⟩
    · rename_i different
      exact Or.inr ⟨different, there⟩
  constructor
  · constructor
    · intro fd
      rw [Finset.mem_insert, bookkept.allset]
      by_cases same : fd = clifd
      · simp [same]
      · simp [same]
    · intro fd uid' there
      rw [added]
      rcases connected fd uid' there with ⟨rfl, rfl⟩ | ⟨different, before⟩
      · refine ⟨i, ?_, ?_, fun j other atOther same => ?_⟩
        · dsimp only
          split <;> omega
        · exact List.getElem?_set_self inside
        · rcases lookup j other atOther with ⟨isNew, _⟩ | ⟨_, old | isFree⟩
          · exact isNew
          · rcases bookkept.used j other old with isFree | ⟨uid', there', _⟩
            · omega
            · rw [same, unused] at there'
              cases there'
          · omega
      · rcases bookkept.entry fd uid' before with ⟨k, below, atEntry, only⟩
        have nonneg' := bookkept.opened fd uid' before
        have moved : i ≠ k := by
          rintro rfl
          rw [kept _ _ atEntry] at atFree
          cases atFree
          dsimp only at isFree
          omega
        refine ⟨k, ?_, ?_, fun j other atOther same => ?_⟩
        · dsimp only
          split <;> omega
        · rw [List.getElem?_set_ne moved]
          exact kept _ _ atEntry
        · rcases lookup j other atOther with ⟨_, rfl⟩ | ⟨_, old | isFree⟩
          · exact absurd same.symm different
          · exact only j other old same
          · omega
    · intro fd member
      dsimp only at member ⊢
      rw [Finset.mem_insert] at member
      rcases member with rfl | member
      · split <;> omega
      · have := bookkept.maxfd fd member
        split <;> omega
  · refine ⟨bookkept.listening.1, ?_⟩
    dsimp only
    rw [if_neg (Ne.symm notListening)]
    exact bookkept.listening.2
  · intro fd uid' there
    rcases connected fd uid' there with ⟨rfl, _⟩ | ⟨_, before⟩
    · exact nonneg
    · exact bookkept.opened fd uid' before
  · intro j entry there
    rw [added] at there ⊢
    rcases lookup j entry there with ⟨rfl, rfl⟩ | ⟨_, old | isFree⟩
    · refine Or.inr ⟨uid, if_pos rfl, rfl, ?_⟩
      dsimp only
      split <;> omega
    · rcases bookkept.used j entry old with isFree | ⟨uid', before, isUid, below⟩
      · exact Or.inl isFree
      · refine Or.inr ⟨uid', ?_, isUid, ?_⟩
        · dsimp only
          rw [if_neg, before]
          intro same
          rw [same, unused] at before
          cases before
        · dsimp only
          split <;> omega
    · exact Or.inl isFree
  · rw [added]
    dsimp only
    rw [List.length_set]
    split <;> omega

/-! ## A connection that is closed -/

theorem clientDel_spec {client : List Client} {i : Nat} {entry : Client}
    (there : client[i]? = some entry)
    (only : ∀ j other, client[j]? = some other → other.fd = entry.fd → j = i) :
    clientDel client entry.fd = some (client.set i { entry with fd := -1 }) := by
  rcases List.getElem?_eq_some_iff.mp there with ⟨inside, same⟩
  have found : (client.findIdx? fun other => decide (other.fd = entry.fd)) = some i := by
    rw [List.findIdx?_eq_some_iff_getElem]
    refine ⟨inside, by simp [same], fun j before => ?_⟩
    rw [decide_eq_true_eq]
    intro sameFd
    have := only j _ (List.getElem?_eq_getElem (before.trans inside)) sameFd
    omega
  rw [clientDel, found, Option.map_some, List.modify_eq_set_getElem?, there]
  rfl

theorem Bookkept.close {server : Server} {clifd : Int} {uid : Nat} (bookkept : Bookkept server)
    (isOpen : server.accepted clifd = some uid) :
    ∃ after, server.close clifd = some after ∧ Bookkept after ∧ after.handled = server.handled ∧
      after.maxi = server.maxi ∧ after.listenfd = server.listenfd ∧
      (∀ fd, fd ≠ clifd → after.accepted fd = server.accepted fd) ∧
      ∀ j : Nat, (∀ entry, server.client[j]? = some entry → entry.fd ≠ clifd) →
        after.client[j]? = server.client[j]? := by
  rcases bookkept.entry clifd uid isOpen with ⟨i, below, atEntry, only⟩
  have deleted := clientDel_spec atEntry only
  have others : ∀ (j : Nat) entry, j ≠ i →
      ((server.client.set i ⟨-1, some uid⟩)[j]? = some entry ↔ server.client[j]? = some entry) := by
    intro j entry different
    rw [List.getElem?_set_ne (Ne.symm different)]
  have closed : server.close clifd = some { server with
      client := server.client.set i ⟨-1, some uid⟩
      allset := server.allset.erase clifd
      accepted := fun fd => if fd = clifd then none else server.accepted fd } := by
    rw [Server.close, deleted]
    rfl
  refine ⟨_, closed, ?_, rfl, rfl, rfl, fun fd different => if_neg different,
    fun j different => ?_⟩
  · constructor
    · constructor
      · intro fd
        rw [Finset.mem_erase, bookkept.allset]
        by_cases same : fd = clifd
        · subst same
          have notListening : fd ≠ server.listenfd := by
            rintro rfl
            rw [bookkept.listening.2] at isOpen
            cases isOpen
          simp [notListening]
        · simp [same]
      · intro fd uid' there
        dsimp only at there ⊢
        split at there
        · cases there
        rename_i different
        rcases bookkept.entry fd uid' there with ⟨k, belowK, atK, onlyK⟩
        have moved : k ≠ i := by
          rintro rfl
          rw [atK] at atEntry
          cases atEntry
          exact different rfl
        refine ⟨k, belowK, (others k _ moved).mpr atK, fun j other atOther same => ?_⟩
        by_cases atClosed : j = i
        · subst atClosed
          rw [List.getElem?_set_self (List.getElem?_eq_some_iff.mp atEntry).1] at atOther
          cases atOther
          have := bookkept.opened fd uid' there
          dsimp only at same
          omega
        · exact onlyK j other ((others j other atClosed).mp atOther) same
      · exact fun fd member => bookkept.maxfd fd (Finset.mem_of_mem_erase member)
    · refine ⟨bookkept.listening.1, ?_⟩
      dsimp only
      rw [bookkept.listening.2, ite_self]
    · intro fd uid' there
      dsimp only at there
      split at there
      · cases there
      · exact bookkept.opened fd uid' there
    · intro j entry there
      by_cases atClosed : j = i
      · subst atClosed
        rw [List.getElem?_set_self (List.getElem?_eq_some_iff.mp atEntry).1] at there
        cases there
        exact Or.inl rfl
      · have before := (others j entry atClosed).mp there
        rcases bookkept.used j entry before with isFree | ⟨uid', isThere, isUid, belowJ⟩
        · exact Or.inl isFree
        · refine Or.inr ⟨uid', ?_, isUid, belowJ⟩
          dsimp only
          rw [if_neg, isThere]
          exact fun same => atClosed (only j entry before same)
    · rw [List.length_set]
      exact bookkept.bound
  · apply List.getElem?_set_ne
    rintro rfl
    exact different _ atEntry rfl

/-! ## The pass over the table -/

/-- What makes the server exit for a client that is ready. -/
def Fails (iteration : Iteration) (fd : Int) : Prop :=
  match iteration.read fd with
  | .error => True
  | .eof => False
  | .data _ => iteration.returns fd = false

theorem Bookkept.note {server : Server} (bookkept : Bookkept server) (handling : Handling) :
    Bookkept (server.note handling) where
  allset := bookkept.allset
  entry := bookkept.entry
  maxfd := bookkept.maxfd
  listening := bookkept.listening
  opened := bookkept.opened
  used := bookkept.used
  bound := bookkept.bound

/-- What was done since the pass began at the first entries of the table: it was
done for those that are ready, once for each, with its own user ID. -/
structure Passed (rset : Finset Int) (start : Server) (i : Nat) (server : Server) : Prop where
  bookkept : Bookkept server
  maxi : server.maxi = start.maxi
  listening : server.listenfd = start.listenfd
  handled : ∃ handled, server.handled = start.handled ++ handled ∧
    (handled.map Handling.fd).Nodup ∧
    (∀ fd, fd ∈ handled.map Handling.fd ↔
      fd ∈ rset ∧ ∃ j < i, ∃ entry, start.client[j]? = some entry ∧ entry.fd = fd ∧ 0 ≤ fd) ∧
    ∀ handling ∈ handled, handling.uid = start.accepted handling.fd ∧ handling.uid.isSome = true
  later : ∀ j : Nat, i ≤ j → server.client[j]? = start.client[j]?
  accepted : ∀ (j : Nat) entry, i ≤ j → start.client[j]? = some entry →
    server.accepted entry.fd = start.accepted entry.fd

theorem Passed.start {rset : Finset Int} {server : Server} (bookkept : Bookkept server) :
    Passed rset server 0 server where
  bookkept := bookkept
  maxi := rfl
  listening := rfl
  handled := ⟨[], by simp, by simp, by simp, by simp⟩
  later := fun _ _ => rfl
  accepted := fun _ _ _ _ => rfl

section Pass

variable {rset : Finset Int} {iteration : Iteration} {start server next : Server} {i : Nat}
  {entry : Client}

/-- The pass goes over an entry that is free or not ready. -/
theorem Passed.skip (passed : Passed rset start i server) (there : start.client[i]? = some entry)
    (quiet : entry.fd < 0 ∨ entry.fd ∉ rset) : Passed rset start (i + 1) server where
  bookkept := passed.bookkept
  maxi := passed.maxi
  listening := passed.listening
  handled := by
    rcases passed.handled with ⟨handled, same, once, ready, owned⟩
    refine ⟨handled, same, once, fun fd => ?_, owned⟩
    rw [ready fd]
    apply and_congr_right
    intro member
    constructor
    · rintro ⟨j, before, isThere⟩
      exact ⟨j, by omega, isThere⟩
    · rintro ⟨j, before, other, atOther, sameFd, nonneg⟩
      have different : j ≠ i := by
        rintro rfl
        rw [there] at atOther
        cases atOther
        rcases quiet with free | notReady
        · omega
        · rw [sameFd] at notReady
          exact notReady member
      exact ⟨j, by omega, other, atOther, sameFd, nonneg⟩
  later := fun j behind => passed.later j (by omega)
  accepted := fun j other behind => passed.accepted j other (by omega)

/-- The pass handles a client that is ready. -/
theorem Passed.handle (passed : Passed rset start i server) (bookkept : Bookkept start)
    (there : start.client[i]? = some entry) (nonneg : 0 ≤ entry.fd) (ready : entry.fd ∈ rset)
    {request : Option (List UInt8)} (bookkeptNext : Bookkept next)
    (handled : next.handled = server.handled ++ [⟨entry.fd, entry.uid, request⟩])
    (maxi : next.maxi = server.maxi) (listening : next.listenfd = server.listenfd)
    (others : ∀ fd, fd ≠ entry.fd → next.accepted fd = server.accepted fd)
    (kept : ∀ j : Nat, (∀ other, server.client[j]? = some other → other.fd ≠ entry.fd) →
      next.client[j]? = server.client[j]?) : Passed rset start (i + 1) next := by
  have inUse : ∃ uid, start.accepted entry.fd = some uid ∧ entry.uid = some uid := by
    rcases bookkept.used i entry there with free | ⟨uid, isThere, isUid, _⟩
    · omega
    · exact ⟨uid, isThere, isUid⟩
  rcases inUse with ⟨uid, accepted, isUid⟩
  have only : ∀ (j : Nat) other, start.client[j]? = some other → other.fd = entry.fd → j = i := by
    rcases bookkept.entry _ _ accepted with ⟨k, _, _, only⟩
    intro j other atOther same
    rw [only j other atOther same, only i entry there rfl]
  have behind : ∀ (j : Nat) other, i + 1 ≤ j → start.client[j]? = some other →
      other.fd ≠ entry.fd := by
    intro j other later atOther same
    have := only j other atOther same
    omega
  refine ⟨bookkeptNext, maxi.trans passed.maxi, listening.trans passed.listening, ?_, ?_, ?_⟩
  · rcases passed.handled with ⟨before, same, once, readyBefore, owned⟩
    refine ⟨before ++ [⟨entry.fd, entry.uid, request⟩], ?_, ?_, fun fd => ?_, ?_⟩
    · rw [handled, same, List.append_assoc]
    · rw [List.map_append, List.nodup_append]
      refine ⟨once, List.nodup_singleton _, ?_⟩
      rintro fd member _ isLast rfl
      rw [List.map_singleton, List.mem_singleton] at isLast
      rcases (readyBefore fd).mp member with ⟨_, j, before, other, atOther, sameFd, _⟩
      have := only j other atOther (sameFd.trans isLast)
      omega
    · rw [List.map_append, List.mem_append, readyBefore fd, List.map_singleton, List.mem_singleton]
      constructor
      · rintro (⟨member, j, before, isThere⟩ | rfl)
        · exact ⟨member, j, by omega, isThere⟩
        · exact ⟨ready, i, by omega, entry, there, rfl, nonneg⟩
      · rintro ⟨member, j, before, other, atOther, sameFd, nonneg⟩
        by_cases here : j = i
        · subst here
          rw [there] at atOther
          cases atOther
          exact Or.inr sameFd.symm
        · exact Or.inl ⟨member, j, by omega, other, atOther, sameFd, nonneg⟩
    · intro handling member
      rcases List.mem_append.mp member with earlier | last
      · exact owned handling earlier
      · rw [List.mem_singleton.mp last]
        dsimp only
        rw [isUid, accepted]
        exact ⟨rfl, rfl⟩
  · intro j later
    rw [kept j, passed.later j (by omega)]
    intro other atOther
    rw [passed.later j (by omega)] at atOther
    exact behind j other later atOther
  · intro j other later atOther
    rw [others _ (behind j other later atOther), passed.accepted j other (by omega) atOther]

/-- The body of the loop handles the entry at its position, or a call fails. -/
theorem Passed.visit (passed : Passed rset start i server) (bookkept : Bookkept start)
    (inside : (i : Int) ≤ start.maxi) :
    (∃ next, visit rset iteration server i = some next ∧ Passed rset start (i + 1) next) ∨
      visit rset iteration server i = none ∧ ∃ fd ∈ rset, Fails iteration fd := by
  have bound := bookkept.bound
  have there := List.getElem?_eq_getElem (l := start.client) (i := i) (by omega)
  generalize start.client[i] = entry at there
  have atEntry : server.client[i]? = some entry := by
    rw [passed.later i (le_refl _), there]
  rw [Select.visit, atEntry, Option.bind_eq_bind, Option.bind_some]
  by_cases free : entry.fd < 0
  · rw [if_pos free]
    exact Or.inl ⟨server, rfl, passed.skip there (Or.inl free)⟩
  rw [if_neg free]
  by_cases ready : entry.fd ∈ rset
  · rw [if_pos ready]
    cases result : iteration.read entry.fd with
    | error =>
        refine Or.inr ⟨rfl, entry.fd, ready, ?_⟩
        rw [Fails, result]
        trivial
    | eof =>
        rcases bookkept.used i entry there with isFree | ⟨uid, accepted, _⟩
        · omega
        rw [← passed.accepted i entry (le_refl _) there] at accepted
        rcases (passed.bookkept.note ⟨entry.fd, entry.uid, none⟩).close accepted with
          ⟨next, closed, bookkeptNext, handled, maxi, listening, others, kept⟩
        exact Or.inl ⟨next, closed, passed.handle bookkept there (not_lt.mp free) ready bookkeptNext
          handled maxi listening others kept⟩
    | data buf =>
        dsimp only
        cases returned : iteration.returns entry.fd with
        | true =>
            exact Or.inl ⟨_, rfl, passed.handle bookkept there (not_lt.mp free) ready
              (passed.bookkept.note _) rfl rfl rfl (fun _ _ => rfl) fun _ _ => rfl⟩
        | false =>
            refine Or.inr ⟨rfl, entry.fd, ready, ?_⟩
            rw [Fails, result]
            exact returned
  · rw [if_neg ready]
    exact Or.inl ⟨server, rfl, passed.skip there (Or.inr ready)⟩

/-- The pass handles the entries one after the other, until a call fails. -/
theorem Bookkept.pass (bookkept : Bookkept start) (count : Nat) (inside : (count : Int) ≤ start.maxi + 1) :
    (∃ next, (List.range count).foldlM (visit rset iteration) start = some next ∧
      Passed rset start count next) ∨
      (List.range count).foldlM (visit rset iteration) start = none ∧
        ∃ fd ∈ rset, Fails iteration fd := by
  induction count with
  | zero => exact Or.inl ⟨start, rfl, .start bookkept⟩
  | succ count hypothesis =>
      rw [List.range_succ, List.foldlM_append]
      rcases hypothesis (by omega) with ⟨next, ran, passed⟩ | ⟨ended, failed⟩
      · rw [ran, Option.bind_eq_bind, Option.bind_some, List.foldlM_cons]
        rcases @Passed.visit _ iteration _ _ _ passed bookkept (by omega) with
          ⟨last, visited, passedLast⟩ | ⟨ended, failed⟩
        · rw [visited]
          exact Or.inl ⟨last, rfl, passedLast⟩
        · rw [ended]
          exact Or.inr ⟨rfl, failed⟩
      · rw [ended]
        exact Or.inr ⟨rfl, failed⟩

end Pass

/-! ## The iterations of the loop -/

/-- A call that ends the server. -/
def CallFails (server : Server) (iteration : Iteration) : Prop :=
  server.listenfd ∈ server.rset iteration ∧ iteration.accept = none ∨
    server.listenfd ∉ server.rset iteration ∧ ∃ fd ∈ server.rset iteration, Fails iteration fd

/-- An iteration that does not take a connection handles each client that is ready
once, with the user ID that it was accepted with. Only a call that fails ends the
server. -/
structure HandlesReady (server : Server) (iteration : Iteration) : Prop where
  handled : ∀ next, loopOnce server iteration = some next →
    server.listenfd ∉ server.rset iteration → ∃ handled, next.handled = server.handled ++ handled ∧
      (handled.map Handling.fd).Nodup ∧
      (∀ fd, fd ∈ handled.map Handling.fd ↔ fd ∈ server.rset iteration) ∧
      ∀ handling ∈ handled, handling.uid = server.accepted handling.fd ∧
        handling.uid.isSome = true
  ends : loopOnce server iteration = none → CallFails server iteration

theorem Bookkept.loopOnce {server next : Server} {iteration : Iteration}
    (bookkept : Bookkept server) (granted : Granted server iteration)
    (looped : Select.loopOnce server iteration = some next) : Bookkept next := by
  have bound := bookkept.bound
  rw [Select.loopOnce] at looped
  split at looped
  · rcases Option.bind_eq_some_iff.mp looped with ⟨⟨clifd, uid⟩, isAccepted, added⟩
    rcases granted clifd uid isAccepted with ⟨nonneg, _, notListening, unused⟩
    exact bookkept.accept nonneg notListening unused added
  · rcases @Bookkept.pass (server.rset iteration) iteration _ bookkept
      (server.maxi + 1).toNat (by omega) with ⟨last, ran, passed⟩ | ⟨ended, _⟩
    · rw [ran] at looped
      cases looped
      exact passed.bookkept
    · rw [ended] at looped
      cases looped

theorem Bookkept.handlesReady {server : Server} {iteration : Iteration}
    (bookkept : Bookkept server) (granted : Granted server iteration) :
    HandlesReady server iteration := by
  have bound := bookkept.bound
  have passed := @Bookkept.pass (server.rset iteration) iteration _ bookkept
    (server.maxi + 1).toNat (by omega)
  constructor
  · intro next looped quiet
    rw [Select.loopOnce, if_neg quiet] at looped
    rcases passed with ⟨last, ran, passed⟩ | ⟨ended, _⟩
    · rw [ran] at looped
      cases looped
      rcases passed.handled with ⟨handled, same, once, ready, owned⟩
      refine ⟨handled, same, once, fun fd => ?_, owned⟩
      rw [ready fd]
      -- A descriptor that is left in the set is that of an entry up to `maxi`.
      refine ⟨fun there => there.1, fun member => ⟨member, ?_⟩⟩
      have inSet := (bookkept.allset fd).mp (Finset.mem_of_mem_filter _ member)
      rcases inSet with rfl | connected
      · exact absurd member quiet
      · rcases Option.isSome_iff_exists.mp connected with ⟨uid, accepted⟩
        rcases bookkept.entry fd uid accepted with ⟨i, below, there, _⟩
        exact ⟨i, by omega, _, there, rfl, bookkept.opened fd uid accepted⟩
    · rw [ended] at looped
      cases looped
  · intro ended
    rw [Select.loopOnce] at ended
    by_cases connecting : server.listenfd ∈ server.rset iteration
    · rw [if_pos connecting] at ended
      refine Or.inl ⟨connecting, ?_⟩
      cases accepted : iteration.accept with
      | none => rfl
      | some connection =>
          rcases granted connection.1 connection.2 accepted with ⟨nonneg, below, _⟩
          rw [accepted, Option.bind_some, Server.accept, fdSet, if_pos ⟨nonneg, below⟩] at ended
          cases ended
    · rw [if_neg connecting] at ended
      refine Or.inr ⟨connecting, ?_⟩
      rcases passed with ⟨last, ran, _⟩ | ⟨_, failed⟩
      · rw [ran] at ended
        cases ended
      · exact failed

/-- Two clients connect, send a request each in one iteration, and the first one
hangs up; a third one gets its descriptor. -/
def busy : List Iteration :=
  [ { readable := fun fd => fd = 3, accept := some (4, 500), read := fun _ => .error,
      returns := fun _ => true },
    { readable := fun fd => fd = 3, accept := some (5, 501), read := fun _ => .error,
      returns := fun _ => true },
    { readable := fun fd => fd = 4 ∨ fd = 5, accept := none,
      read := fun fd => if fd = 4 then .eof else .data [111, 0], returns := fun _ => true },
    { readable := fun fd => fd = 3, accept := some (4, 502), read := fun _ => .error,
      returns := fun _ => true } ]

end Apue.Opend.Select
