import Apue.Database.Record

/-! # The database as a map

What the library is for: a map from keys to data, of which every key belongs to
one of the hash chains.
-/

namespace Apue.Database

open Apue.Foundation

abbrev Table := Bytes → Option Bytes

/-- The result of a call and the map after it. -/
def applyCall : Call → Table → Return × Table
  | .store key data flag, table =>
      if flag ≠ DB_INSERT ∧ flag ≠ DB_REPLACE ∧ flag ≠ DB_STORE then (.code (-1), table)
      else match table key.1 with
        | none =>
            if flag = DB_REPLACE then (.code (-1), table)
            else (.code 0, Function.update table key.1 (some data.1))
        | some _ =>
            if flag = DB_INSERT then (.code 1, table)
            else (.code 0, Function.update table key.1 (some data.1))
  | .delete key, table =>
      match table key.1 with
      | none => (.code (-1), table)
      | some _ => (.code 0, Function.update table key.1 none)
  | .fetch key, table => (.data (table key.1), table)

def Call.key : Call → Bytes
  | .store key _ _ => key.1
  | .delete key => key.1
  | .fetch key => key.1

/-- A key with the separator of the index records would not be read back. -/
def Call.NoSeparator (call : Call) : Prop := ∀ byte ∈ call.key, byte ≠ SEP

/-- A call that can put a new record into the database. -/
def Call.Inserts : Call → Prop
  | .store _ _ flag => flag = DB_INSERT ∨ flag = DB_STORE
  | _ => False

def Call.Stores : Call → Prop
  | .store _ _ _ => True
  | _ => False

/-- A call that puts no key with the separator into the database. -/
def Call.Sound (call : Call) : Prop := call.Inserts → call.NoSeparator

theorem Call.NoSeparator.sound {call : Call} (noSep : call.NoSeparator) : call.Sound :=
  fun _ => noSep

abbrev Chain := Fin NHASH_DEF

def chainOf (key : Bytes) : Chain :=
  ⟨dbHash key, Nat.mod_lt _ (by decide)⟩

/-- The part of a map that belongs to one hash chain. -/
def tableOn (table : Table) (chain : Chain) : Table :=
  fun key => if chainOf key = chain then table key else none

theorem tableOn_self (table : Table) (key : Bytes) :
    tableOn table (chainOf key) key = table key := if_pos rfl

theorem tableOn_update (table : Table) (key : Bytes) (value : Option Bytes) (chain : Chain) :
    tableOn (Function.update table key value) chain =
      if chainOf key = chain then Function.update (tableOn table chain) key value
      else tableOn table chain := by
  funext other
  by_cases isKey : other = key
  · subst isKey
    by_cases here : chainOf other = chain <;> simp [tableOn, here]
  · by_cases here : chainOf key = chain <;> simp [tableOn, here, isKey]

theorem applyCall_congr {left right : Table} (call : Call)
    (same : left call.key = right call.key) :
    (applyCall call left).1 = (applyCall call right).1 := by
  cases call with
  | store key data flag =>
      simp only [Call.key] at same
      simp only [applyCall, same]
      split
      · rfl
      · split <;> split <;> rfl
  | delete key =>
      simp only [Call.key] at same
      simp only [applyCall, same]
      split <;> rfl
  | fetch key => exact congrArg Return.data same

/-- A call changes the map at its own key only, and by what is there. -/
theorem applyCall_table (call : Call) (table : Table) :
    (applyCall call table).2 =
      Function.update table call.key ((applyCall call table).2 call.key) := by
  cases call with
  | store key data flag =>
      simp only [applyCall, Call.key]
      split
      · exact (Function.update_eq_self _ _).symm
      · split <;> split <;> simp
  | delete key =>
      simp only [applyCall, Call.key]
      split <;> simp
  | fetch key => exact (Function.update_eq_self _ _).symm

theorem applyCall_at_key {left right : Table} (call : Call)
    (same : left call.key = right call.key) :
    (applyCall call left).2 call.key = (applyCall call right).2 call.key := by
  cases call with
  | store key data flag =>
      simp only [Call.key] at same
      simp only [applyCall, Call.key, same]
      split
      · exact same
      · split <;> split <;> simp [same]
  | delete key =>
      simp only [Call.key] at same
      simp only [applyCall, Call.key, same]
      split <;> simp [same]
  | fetch key => exact same

/-- A call is a call on the part of the map that belongs to the chain of its
key. -/
theorem tableOn_applyCall (call : Call) (table : Table) (chain : Chain) :
    tableOn (applyCall call table).2 chain =
      if chainOf call.key = chain then (applyCall call (tableOn table chain)).2
      else tableOn table chain := by
  split
  · rename_i here
    subst here
    have same : tableOn table (chainOf call.key) call.key = table call.key :=
      tableOn_self table call.key
    rw [applyCall_table call (tableOn table _), applyCall_at_key call same,
      applyCall_table call table]
    funext key
    by_cases isKey : key = call.key
    · subst isKey
      simp [tableOn]
    · simp [tableOn, isKey]
  · rename_i elsewhere
    rw [applyCall_table call table]
    funext key
    by_cases isKey : key = call.key
    · subst isKey
      simp [tableOn, elsewhere]
    · simp [tableOn, isKey]

theorem applyCall_delete_self (key : CString) (table : Table) :
    (applyCall (.delete key) table).2 key.1 = none := by
  cases present : table key.1 with
  | none => simp only [applyCall, present]
  | some data => simp only [applyCall, present, Function.update_self]

/-- A key is in the map only after a call that inserts it. -/
theorem inserts_of_present {call : Call} {table : Table}
    (present : (applyCall call table).2 call.key ≠ none) :
    table call.key ≠ none ∨ call.Inserts := by
  cases call with
  | store key data flag =>
      by_cases there : table key.1 = none
      · right
        simp only [applyCall, Call.key, there] at present
        by_cases unknown : flag ≠ DB_INSERT ∧ flag ≠ DB_REPLACE ∧ flag ≠ DB_STORE
        · rw [if_pos unknown] at present
          exact absurd there present
        · by_cases replace : flag = DB_REPLACE
          · rw [if_neg unknown, if_pos replace] at present
            exact absurd there present
          · rw [Call.Inserts]
            omega
      · exact Or.inl there
  | delete key =>
      left
      intro absent
      simp only [Call.key] at absent
      simp only [applyCall, absent, Call.key] at present
      exact present rfl
  | fetch key => exact Or.inl present

theorem finalObject_keys {property : Bytes → Prop} {calls : List Call} {table : Table}
    (inserted : ∀ call ∈ calls, call.Inserts → property call.key)
    (start : ∀ key, table key ≠ none → property key) :
    ∀ key, AtomicObject.finalObject applyCall calls table key ≠ none → property key := by
  induction calls generalizing table with
  | nil => exact start
  | cons call calls hypothesis =>
      apply hypothesis fun other member => inserted other (List.mem_cons_of_mem _ member)
      intro key present
      change (applyCall call table).2 key ≠ none at present
      by_cases isKey : key = call.key
      · subst isKey
        rcases inserts_of_present present with there | inserts
        · exact start _ there
        · exact inserted call List.mem_cons_self inserts
      · rw [applyCall_table, Function.update_of_ne isKey] at present
        exact start key present

end Apue.Database
