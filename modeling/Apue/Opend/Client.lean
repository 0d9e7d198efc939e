import Mathlib.Data.List.Basic

/-! # The client table of the open server

`ipc2/opend/client.c` keeps one entry for each connected client in an array
that grows by `NALLOC` entries at a time. An entry is free when its descriptor
is -1, and a new client takes the first free entry.
-/

namespace Apue.Opend

def NALLOC : Nat := 10

/-- `uid` is `none` in an entry that was allocated and never assigned. -/
structure Client where
  fd : Int
  uid : Option Nat
  deriving DecidableEq, Repr

def clientAlloc (client : List Client) : List Client :=
  client ++ List.replicate NALLOC { fd := -1, uid := none }

/-- The table after the call, and the index of the client's entry. -/
def clientAdd (client : List Client) (fd : Int) (uid : Nat) : List Client × Nat :=
  match client.findIdx? fun entry => entry.fd = -1 with
  | some i => (client.set i { fd, uid := some uid }, i)
  | none =>
      ((clientAlloc client).set client.length { fd, uid := some uid }, client.length)

/-- `none` when the server quits because it finds no entry for `fd`. -/
def clientDel (client : List Client) (fd : Int) : Option (List Client) :=
  (client.findIdx? fun entry => entry.fd = fd).map fun i =>
    client.modify i fun entry => { entry with fd := -1 }

/-- The first free entry behind the occupied ones, which may have to be
allocated, goes to the new client. -/
theorem clientAdd_append {occupied free : List Client} (fd : Int) (uid : Nat)
    (occupiedFd : ∀ entry ∈ occupied, entry.fd ≠ -1)
    (freeFd : ∀ entry ∈ free, entry.fd = -1) :
    ∃ rest, clientAdd (occupied ++ free) fd uid =
        (occupied ++ { fd, uid := some uid } :: rest, occupied.length) ∧
      ∀ entry ∈ rest, entry.fd = -1 := by
  have skipped : occupied.findIdx? (fun entry => decide (entry.fd = -1)) = none := by
    rw [List.findIdx?_eq_none_iff]
    exact fun entry member => by simp [occupiedFd entry member]
  cases free with
  | nil =>
      refine ⟨List.replicate 9 { fd := -1, uid := none }, ?_, ?_⟩
      · rw [List.append_nil, clientAdd, skipped]
        simp [clientAlloc, NALLOC, List.replicate_succ]
      · intro entry member
        rw [List.eq_of_mem_replicate member]
  | cons head rest =>
      refine ⟨rest, ?_, fun entry member => freeFd entry (by simp [member])⟩
      have found : (occupied ++ head :: rest).findIdx?
          (fun entry => decide (entry.fd = -1)) = some occupied.length := by
        simp [List.findIdx?_append, skipped, List.findIdx?_cons, freeFd head (by simp)]
      rw [clientAdd, found]
      simp

/-- Deleting the last occupied entry frees it where it stands. -/
theorem clientDel_append {occupied free : List Client} {entry : Client}
    (different : ∀ other ∈ occupied, other.fd ≠ entry.fd) :
    clientDel (occupied ++ entry :: free) entry.fd =
      some (occupied ++ { entry with fd := -1 } :: free) := by
  have skipped : occupied.findIdx? (fun other => decide (other.fd = entry.fd)) = none := by
    rw [List.findIdx?_eq_none_iff]
    exact fun other member => by simp [different other member]
  have found : (occupied ++ entry :: free).findIdx?
      (fun other => decide (other.fd = entry.fd)) = some occupied.length := by
    simp [List.findIdx?_append, skipped, List.findIdx?_cons]
  rw [clientDel, found, Option.map_some, List.modify_eq_take_drop]
  simp

end Apue.Opend
