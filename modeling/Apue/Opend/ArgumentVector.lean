import Apue.Foundation.ByteFile
import Apue.Opend.Requests

/-! # The arguments in their buffer

`buf_args` of `lib/bufargs.c` with the pointers that it stores, and the NUL bytes that
`strtok` writes behind the words. A pointer is an offset in the buffer, or null.
-/

namespace Apue.Opend.ArgumentVector

open Apue.Foundation Ascii

abbrev Pointer := Option Nat

/-- What `strtok` returns, and where it goes on when it is called with a null pointer. -/
structure Token where
  ptr : Nat
  buf : Bytes
  saved : Nat

/-- The separator behind the word is overwritten. There is none behind a word that ends with
the buffer. -/
def strtokAt (buf : Bytes) (position : Nat) : Option Token :=
  let text := cString (buf.drop position)
  let ptr := position + (text.takeWhile isWhite).length
  let word := (text.dropWhile isWhite).takeWhile (! isWhite ·)
  let stop := ptr + word.length
  if word = [] then none
  else if (text.dropWhile isWhite).dropWhile (! isWhite ·) = [] then some ⟨ptr, buf, stop⟩
  else some ⟨ptr, buf.set stop 0, stop + 1⟩

/-- `argv[index] = pointer`, which is undefined outside the array. -/
def store (argv : List Pointer) (index : Nat) (pointer : Pointer) : Option (List Pointer) :=
  if index < argv.length then some (argv.set index pointer) else none

/-- `buf_args` returns -1 itself, or what `optfunc` returns. -/
inductive Outcome
  | failed
  | called (argc : Nat) (argv : List Pointer) (buf : Bytes)

/-- The loop, with a bound on its rounds. It is undefined where a pointer is stored outside
`argv`. -/
def argLoop : Nat → Bytes → Nat → Nat → List Pointer → Option Outcome
  | 0, _, _, _, _ => none
  | rounds + 1, buf, saved, argc, argv =>
      match strtokAt buf saved with
      | none => do
          let argc := argc + 1
          let argv ← store argv argc none
          return .called argc argv buf
      | some ⟨ptr, buf, saved⟩ =>
          let argc := argc + 1
          if MAXARGC - 1 ≤ argc then some .failed
          else do
            let argv ← store argv argc (some ptr)
            argLoop rounds buf saved argc argv

/-- `argv` is what the array holds before the call. -/
def bufArgs (buf : Bytes) (argv : List Pointer) : Option Outcome :=
  match strtokAt buf 0 with
  | none => some .failed
  | some ⟨_, buf, saved⟩ => do
      let argv ← store argv 0 (some 0)
      argLoop MAXARGC buf saved 0 argv

/-! ## Words in a buffer -/

/-- The word is at the pointer with a NUL byte behind it, in the part of the buffer that the
next calls of `strtok` do not write to. -/
structure Word (buf : Bytes) (saved ptr : Nat) (word : Bytes) : Prop where
  noNul : ∀ byte ∈ word, byte ≠ 0
  read : pread buf ptr (word.length + 1) = word ++ [0]
  before : ptr + word.length ≤ saved

section Words

variable {buf changed word : Bytes} {saved later position ptr : Nat}

theorem Word.cString_eq (isWord : Word buf saved ptr word) : cString (buf.drop ptr) = word := by
  have whole := List.take_append_drop (word.length + 1) (buf.drop ptr)
  have front : (buf.drop ptr).take (word.length + 1) = word ++ [0] := isWord.read
  rw [← whole, front, List.append_assoc, List.singleton_append]
  exact cString_append isWord.noNul

/-- A change behind `saved` does not touch the word. -/
theorem Word.keep (isWord : Word buf saved ptr word)
    (same : changed.take (saved + 1) = buf.take (saved + 1)) (le : saved ≤ later) :
    Word changed later ptr word where
  noNul := isWord.noNul
  before := isWord.before.trans le
  read := by
    have within : ∀ file : Bytes, pread file ptr (word.length + 1) =
        ((file.take (saved + 1)).drop ptr).take (word.length + 1) := by
      intro file
      have inside : word.length + 1 ≤ saved + 1 - ptr := by
        have before := isWord.before
        omega
      rw [pread, List.drop_take, List.take_take, Nat.min_eq_left inside]
    rw [within, same, ← within]
    exact isWord.read

theorem set_append (front back : Bytes) (old new : Byte) :
    (front ++ old :: back).set front.length new = front ++ new :: back := by
  rw [List.set_append_right _ _ (Nat.le_refl _), Nat.sub_self]
  rfl

/-- The text in front of the first NUL byte. -/
theorem exists_text {bytes : Bytes} (terminated : 0 ∈ bytes) :
    ∃ rest, bytes = cString bytes ++ 0 :: rest := by
  induction bytes with
  | nil => cases terminated
  | cons byte bytes hypothesis =>
      by_cases isNul : byte = 0
      · subst isNul
        exact ⟨bytes, rfl⟩
      · rcases List.mem_cons.mp terminated with isFirst | behind
        · exact absurd isFirst.symm isNul
        · rcases hypothesis behind with ⟨rest, whole⟩
          have keeps : cString (byte :: bytes) = byte :: cString bytes :=
            List.takeWhile_cons_of_pos (decide_eq_true isNul)
          refine ⟨rest, ?_⟩
          rw [keeps, List.cons_append, ← whole]

theorem take_string (word rest : Bytes) :
    (word ++ 0 :: rest).take (word.length + 1) = word ++ [0] := by
  rw [List.take_append, List.take_of_length_le (Nat.le_succ _), Nat.add_sub_cancel_left]
  rfl

/-- What `strtokAt` leaves where its word ends with a separator or with the buffer. -/
theorem strtokAt_word {white tail rest : Bytes} {word : Bytes} (nonempty : word ≠ [])
    (whole : buf.drop position = white ++ (word ++ (tail ++ 0 :: rest)))
    (noNul : ∀ byte ∈ word ++ tail, byte ≠ 0) (token : Token)
    (isToken : token = if tail = [] then
        ⟨position + white.length, buf, position + white.length + word.length⟩
      else ⟨position + white.length, buf.set (position + white.length + word.length) 0,
        position + white.length + word.length + 1⟩) :
    Word token.buf token.saved token.ptr word ∧
      cString (token.buf.drop token.saved) = tail.drop 1 ∧ 0 ∈ token.buf.drop token.saved ∧
      position < token.ptr + word.length ∧
      token.buf.take (token.ptr + word.length) = buf.take (token.ptr + word.length) := by
  have long : 0 < word.length := List.length_pos_of_ne_nil nonempty
  have wordNoNul : ∀ byte ∈ word, byte ≠ 0 := fun byte member =>
    noNul byte (List.mem_append_left _ member)
  have atWord : buf.drop (position + white.length) = word ++ (tail ++ 0 :: rest) := by
    rw [← List.drop_drop, whole, List.drop_left]
  have atStop : buf.drop (position + white.length + word.length) = tail ++ 0 :: rest := by
    rw [← List.drop_drop, atWord, List.drop_left]
  cases tail with
  | nil =>
      rw [if_pos rfl] at isToken
      subst isToken
      refine ⟨⟨wordNoNul, ?_, Nat.le_refl _⟩, ?_, ?_, ?_, rfl⟩
      · rw [pread, atWord]
        exact take_string word rest
      · dsimp only
        rw [atStop]
        rfl
      · dsimp only
        rw [atStop]
        exact List.mem_append_right _ List.mem_cons_self
      · dsimp only
        omega
  | cons separator behind =>
      rw [if_neg (List.cons_ne_nil _ _)] at isToken
      subst isToken
      have behindNoNul : ∀ byte ∈ behind, byte ≠ 0 := fun byte member =>
        noNul byte (List.mem_append_right _ (List.mem_cons_of_mem _ member))
      have changed : (buf.set (position + white.length + word.length) 0).drop
          (position + white.length) = word ++ 0 :: (behind ++ 0 :: rest) := by
        rw [List.drop_set, if_neg (by omega), atWord, Nat.add_sub_cancel_left, List.cons_append,
          set_append]
      have left : (buf.set (position + white.length + word.length) 0).drop
          (position + white.length + word.length + 1) = behind ++ 0 :: rest := by
        rw [List.drop_set, if_pos (by omega), ← List.drop_drop, atStop]
        rfl
      refine ⟨⟨wordNoNul, ?_, Nat.le_succ _⟩, ?_, ?_, ?_, ?_⟩
      · rw [pread]
        dsimp only
        rw [changed]
        exact take_string word _
      · dsimp only
        rw [left]
        exact cString_append behindNoNul
      · dsimp only
        rw [left]
        exact List.mem_append_right _ List.mem_cons_self
      · dsimp only
        omega
      · exact List.take_set_of_le (Nat.le_refl _)

/-- `strtokAt` finds the token that `strtok` finds in the text, and leaves the rest of it to the
next call. -/
theorem strtokAt_eq (terminated : 0 ∈ buf.drop position) :
    match strtok isWhite (cString (buf.drop position)) with
    | none => strtokAt buf position = none
    | some (word, rest) => ∃ token, strtokAt buf position = some token ∧
        token.ptr = position + ((cString (buf.drop position)).takeWhile isWhite).length ∧
        Word token.buf token.saved token.ptr word ∧ cString (token.buf.drop token.saved) = rest ∧
        0 ∈ token.buf.drop token.saved ∧ position < token.ptr + word.length ∧
        token.buf.take (token.ptr + word.length) = buf.take (token.ptr + word.length) := by
  rcases exists_text terminated with ⟨rest, whole⟩
  have split := @List.takeWhile_append_dropWhile _ isWhite (cString (buf.drop position))
  have noNul : ∀ byte ∈ cString (buf.drop position), byte ≠ 0 := by
    intro byte member
    simpa using mem_takeWhile member
  generalize isText : cString (buf.drop position) = text at *
  rw [strtok]
  cases body : text.dropWhile isWhite with
  | nil =>
      rw [strtokAt, isText, body]
      rfl
  | cons symbol more =>
      have notWhite : isWhite symbol = false := by
        have head := List.head?_dropWhile_not isWhite text
        rw [body] at head
        simpa using head
      have isWord : (symbol :: more).takeWhile (! isWhite ·) =
          symbol :: more.takeWhile (! isWhite ·) :=
        List.takeWhile_cons_of_pos (by rw [notWhite]; rfl)
      have isTail : (symbol :: more).dropWhile (! isWhite ·) = more.dropWhile (! isWhite ·) :=
        List.dropWhile_cons_of_pos (by rw [notWhite]; rfl)
      have isBody := @List.takeWhile_append_dropWhile _ (! isWhite ·) (symbol :: more)
      have wholeSplit : buf.drop position = text.takeWhile isWhite ++
          ((symbol :: more.takeWhile (! isWhite ·)) ++ (more.dropWhile (! isWhite ·) ++ 0 :: rest)) := by
        rw [isWord, isTail] at isBody
        rw [whole, ← List.append_assoc _ _ (0 :: rest), isBody, ← body, ← List.append_assoc, split]
      have bodyNoNul : ∀ byte ∈ (symbol :: more.takeWhile (! isWhite ·)) ++
          more.dropWhile (! isWhite ·), byte ≠ 0 := by
        rw [isWord, isTail] at isBody
        rw [isBody, ← body]
        intro byte member
        exact noNul byte ((List.dropWhile_suffix _).subset member)
      have facts := strtokAt_word (List.cons_ne_nil _ _) wholeSplit bodyNoNul _ rfl
      refine ⟨_, ?_, ?_, facts⟩
      · rw [strtokAt, isText, body, isWord, isTail, if_neg (List.cons_ne_nil _ _)]
        split
        · rfl
        · rfl
      · split
        · rfl
        · rfl

end Words

/-! ## The loop -/

/-- The arguments that are stored so far. -/
structure Collected (buf : Bytes) (saved : Nat) (argv : List Pointer) (args : List Bytes) :
    Prop where
  size : argv.length = MAXARGC
  words : ∀ (index : Nat) (word : Bytes), args[index]? = some word →
    ∃ ptr, argv[index]? = some (some ptr) ∧ Word buf saved ptr word

/-- The arguments as `optfunc` finds them. -/
structure Arguments (argv : List Pointer) (buf : Bytes) (args : List Bytes) : Prop where
  terminated : argv[args.length]? = some none
  words : ∀ (index : Nat) (word : Bytes), args[index]? = some word →
    ∃ ptr, argv[index]? = some (some ptr) ∧ cString (buf.drop ptr) = word

section Loop

variable {buf changed word : Bytes} {saved later ptr : Nat} {argv : List Pointer}
  {args : List Bytes}

theorem store_eq (size : argv.length = MAXARGC) {index : Nat} (inside : index < MAXARGC)
    (pointer : Pointer) : store argv index pointer = some (argv.set index pointer) := by
  rw [store, size, if_pos inside]

theorem Collected.push (collected : Collected buf saved argv args) (few : args.length < MAXARGC)
    (same : changed.take (saved + 1) = buf.take (saved + 1)) (le : saved ≤ later)
    (isWord : Word changed later ptr word) :
    Collected changed later (argv.set args.length (some ptr)) (args ++ [word]) where
  size := by rw [List.length_set, collected.size]
  words := by
    intro index other found
    rcases Nat.lt_trichotomy index args.length with before | rfl | behind
    · rw [List.getElem?_append_left before] at found
      rcases collected.words index other found with ⟨old, isOld, kept⟩
      refine ⟨old, ?_, kept.keep same le⟩
      rw [List.getElem?_set_ne (Nat.ne_of_gt before)]
      exact isOld
    · rw [List.getElem?_concat_length, Option.some.injEq] at found
      subst found
      refine ⟨ptr, ?_, isWord⟩
      rw [List.getElem?_set_self (by rw [collected.size]; exact few)]
    · rw [List.getElem?_eq_none (by rw [List.length_append, List.length_singleton]; omega)] at found
      cases found

theorem Collected.finish (collected : Collected buf saved argv args) (few : args.length < MAXARGC) :
    Arguments (argv.set args.length none) buf args where
  terminated := by rw [List.getElem?_set_self (by rw [collected.size]; exact few)]
  words := by
    intro index word found
    rcases collected.words index word found with ⟨ptr, isPtr, isWord⟩
    have inside := (List.getElem?_eq_some_iff.mp found).1
    refine ⟨ptr, ?_, isWord.cString_eq⟩
    rw [List.getElem?_set_ne (Nat.ne_of_gt inside)]
    exact isPtr

/-- The loop calls `optfunc` with the arguments that it had and the words that are left, or
fails because they are too many. -/
theorem argLoop_eq {rounds argc : Nat} (enough : MAXARGC < rounds + args.length)
    (isArgc : argc + 1 = args.length) (few : args.length ≤ 49)
    (collected : Collected buf saved argv args) (terminated : 0 ∈ buf.drop saved) :
    if args.length + (tokens isWhite (cString (buf.drop saved))).length ≤ 49 then
      ∃ argv' buf', argLoop rounds buf saved argc argv =
          some (.called (args ++ tokens isWhite (cString (buf.drop saved))).length argv' buf') ∧
        Arguments argv' buf' (args ++ tokens isWhite (cString (buf.drop saved)))
    else argLoop rounds buf saved argc argv = some .failed := by
  induction rounds generalizing buf saved argc argv args with
  | zero =>
      rw [MAXARGC] at enough
      omega
  | succ rounds hypothesis =>
      have found := strtokAt_eq terminated
      rw [tokens_eq_strtok, argLoop]
      cases isToken : strtok isWhite (cString (buf.drop saved)) with
      | none =>
          rw [isToken] at found
          have noToken : strtokAt buf saved = none := found
          have inside : argc + 1 < MAXARGC := by
            rw [MAXARGC]
            omega
          simp only [noToken, store_eq collected.size inside, Option.bind_eq_bind, Option.bind_some,
            List.append_nil, List.length_nil, Nat.add_zero, if_pos few]
          rw [isArgc] at inside ⊢
          exact ⟨_, buf, rfl, collected.finish inside⟩
      | some pair =>
          rcases pair with ⟨word, rest⟩
          rw [isToken] at found
          rcases found with ⟨token, isFound, _, isWord, isRest, terminated, later, same⟩
          dsimp only
          rw [isFound, isArgc]
          dsimp only
          by_cases last : MAXARGC - 1 ≤ args.length
          · rw [if_pos last, if_neg]
            rw [MAXARGC] at last
            rw [List.length_cons]
            omega
          · have inside : args.length < MAXARGC := by
              rw [MAXARGC] at last ⊢
              omega
            have sameBefore : token.buf.take (saved + 1) = buf.take (saved + 1) := by
              have shorter := congrArg (List.take (saved + 1)) same
              rw [List.take_take, List.take_take, Nat.min_eq_left later] at shorter
              exact shorter
            have le : saved ≤ token.saved := (Nat.le_of_lt later).trans isWord.before
            have pushed := collected.push inside sameBefore le isWord
            have more : MAXARGC < rounds + (args ++ [word]).length := by
              rw [List.length_append, List.length_singleton]
              omega
            have stillFew : (args ++ [word]).length ≤ 49 := by
              rw [MAXARGC] at last
              rw [List.length_append, List.length_singleton]
              omega
            have next := hypothesis more (by rw [List.length_append, List.length_singleton]) stillFew
              pushed terminated
            rw [if_neg last, store_eq collected.size inside]
            rw [isRest, List.append_assoc, List.singleton_append, List.length_append,
              List.length_singleton, Nat.add_assoc, Nat.add_comm 1] at next
            rw [List.length_cons]
            exact next

end Loop

/-! ## The whole function -/

section BufArgs

variable {buf : Bytes} {argv : List Pointer}

theorem bufArgs_fails (terminated : 0 ∈ buf) (none : tokens isWhite (cString buf) = []) :
    bufArgs buf argv = some .failed := by
  have found := @strtokAt_eq buf 0 terminated
  rw [List.drop_zero] at found
  rw [tokens_eq_strtok] at none
  cases isToken : strtok isWhite (cString buf) with
  | none =>
      rw [isToken] at found
      have noToken : strtokAt buf 0 = Option.none := found
      rw [bufArgs, noToken]
  | some pair =>
      rw [isToken] at none
      cases none

/-- The white space in front of the first word belongs to the string at the start of the
buffer. -/
theorem Word.fromStart {word : Bytes} {token : Token}
    (isWord : Word token.buf token.saved token.ptr word) (isPtr : token.ptr = ((cString buf).takeWhile isWhite).length)
    (same : token.buf.take (token.ptr + word.length) = buf.take (token.ptr + word.length)) :
    Word token.buf token.saved 0 ((cString buf).takeWhile isWhite ++ word) where
  noNul := by
    intro byte member
    rcases List.mem_append.mp member with inFront | inside
    · have inText := (List.takeWhile_prefix _).subset inFront
      simpa using mem_takeWhile inText
    · exact isWord.noNul byte inside
  before := by
    rw [List.length_append, Nat.zero_add, ← isPtr]
    exact isWord.before
  read := by
    have front : token.buf.take token.ptr = (cString buf).takeWhile isWhite := by
      have shorter := congrArg (List.take token.ptr) same
      rw [List.take_take, List.take_take, Nat.min_eq_left (Nat.le_add_right _ _)] at shorter
      have atStart : (cString buf).takeWhile isWhite <+: buf :=
        (List.takeWhile_prefix _).trans (List.takeWhile_prefix _)
      rw [shorter, isPtr]
      exact (List.prefix_iff_eq_take.mp atStart).symm
    have behind : (token.buf.drop token.ptr).take (word.length + 1) = word ++ [0] := isWord.read
    rw [pread, List.drop_zero, List.length_append, ← isPtr, Nat.add_assoc, List.take_add, front,
      behind, List.append_assoc]

/-- The first argument begins with the buffer, and the others are the other words. -/
theorem bufArgs_calls {first : Bytes} {others : List Bytes} (terminated : 0 ∈ buf)
    (size : argv.length = MAXARGC) (found : tokens isWhite (cString buf) = first :: others) :
    if others.length + 1 ≤ 49 then
      ∃ argv' buf', bufArgs buf argv = some (.called (others.length + 1) argv' buf') ∧
        Arguments argv' buf' (((cString buf).takeWhile isWhite ++ first) :: others)
    else bufArgs buf argv = some .failed := by
  have token := @strtokAt_eq buf 0 terminated
  rw [List.drop_zero] at token
  rw [tokens_eq_strtok] at found
  cases isToken : strtok isWhite (cString buf) with
  | none =>
      rw [isToken] at found
      cases found
  | some pair =>
      rcases pair with ⟨word, rest⟩
      rw [isToken] at token found
      rcases List.cons.inj found with ⟨rfl, rfl⟩
      rcases token with ⟨token, isFound, isPtr, isWord, isRest, terminated', later, same⟩
      rw [Nat.zero_add] at isPtr
      have collected : Collected token.buf token.saved (argv.set 0 (some 0))
          [(cString buf).takeWhile isWhite ++ word] := by
        refine ⟨by rw [List.length_set, size], fun index arg isArg => ?_⟩
        cases index with
        | zero =>
            rw [List.getElem?_cons_zero, Option.some.injEq] at isArg
            subst isArg
            refine ⟨0, ?_, isWord.fromStart isPtr same⟩
            rw [List.getElem?_set_self (by rw [size, MAXARGC]; omega)]
        | succ index => cases isArg
      have enough : MAXARGC < MAXARGC + [(cString buf).takeWhile isWhite ++ word].length :=
        Nat.lt_succ_self _
      have few : [(cString buf).takeWhile isWhite ++ word].length ≤ 49 := by
        rw [List.length_singleton]
        decide
      have rest := argLoop_eq enough rfl few collected terminated'
      rw [bufArgs, isFound]
      dsimp only
      rw [store_eq size (by decide)]
      rw [isRest, List.length_singleton, List.singleton_append, List.length_cons,
        Nat.add_comm 1] at rest
      exact rest

/-- The strings that the pointers lead to are the arguments of the function without pointers. -/
theorem bufArgs_strings {Result : Type} (failed : Result) (optfunc : List Bytes → Result)
    (terminated : 0 ∈ buf) (size : argv.length = MAXARGC) :
    bufArgs buf argv = some .failed ∧ Opend.bufArgs buf failed optfunc = failed ∨
      ∃ args argv' buf', bufArgs buf argv = some (.called args.length argv' buf') ∧
        Arguments argv' buf' args ∧ Opend.bufArgs buf failed optfunc = optfunc args := by
  cases found : tokens isWhite (cString buf) with
  | nil => exact Or.inl ⟨bufArgs_fails terminated found, bufArgs_nil found⟩
  | cons first others =>
      have calls := bufArgs_calls terminated size found
      rw [bufArgs_cons found]
      by_cases few : others.length ≤ 48
      · rw [if_pos (by omega)] at calls
        rcases calls with ⟨argv', buf', called, args⟩
        exact Or.inr ⟨((cString buf).takeWhile isWhite ++ first) :: others, argv', buf', called, args,
          if_pos few⟩
      · rw [if_neg (by omega)] at calls
        exact Or.inl ⟨calls, if_neg few⟩

/-- `optfunc` is called with the words of the buffer where there are between 1 and 49 of them,
and is not called otherwise. -/
def PassesWords (buf : Bytes) (argv : List Pointer) : Prop :=
  let words := tokens isWhite (cString buf)
  if 1 ≤ words.length ∧ words.length ≤ 49 then
    ∃ argv' buf', bufArgs buf argv = some (.called words.length argv' buf') ∧
      Arguments argv' buf' words
  else bufArgs buf argv = some .failed

def startsWhite (buf : Bytes) : Bool := buf.head?.any isWhite

theorem takeWhile_white (buf : Bytes) :
    (cString buf).takeWhile isWhite = [] ↔ startsWhite buf = false := by
  cases buf with
  | nil => exact ⟨fun _ => rfl, fun _ => rfl⟩
  | cons byte buf =>
      have starts : startsWhite (byte :: buf) = isWhite byte := rfl
      rw [starts]
      by_cases isNul : byte = 0
      · subst isNul
        exact ⟨fun _ => rfl, fun _ => rfl⟩
      · have keeps : cString (byte :: buf) = byte :: cString buf :=
          List.takeWhile_cons_of_pos (decide_eq_true isNul)
        rw [keeps, List.takeWhile_cons]
        cases isWhite byte with
        | true => exact ⟨nofun, nofun⟩
        | false => exact ⟨fun _ => rfl, fun _ => rfl⟩

theorem passesWords_of_start (terminated : 0 ∈ buf) (size : argv.length = MAXARGC)
    (good : startsWhite buf = false ∨ tokens isWhite (cString buf) = [] ∨
      49 < (tokens isWhite (cString buf)).length) : PassesWords buf argv := by
  rw [PassesWords]
  cases found : tokens isWhite (cString buf) with
  | nil =>
      rw [if_neg (by simp)]
      exact bufArgs_fails terminated found
  | cons first others =>
      have calls := bufArgs_calls terminated size found
      rw [found] at good
      rw [List.length_cons] at good ⊢
      by_cases few : others.length + 1 ≤ 49
      · rw [if_pos few] at calls
        have start : startsWhite buf = false := by
          rcases good with start | isNil | many
          · exact start
          · cases isNil
          · omega
        rw [(takeWhile_white buf).mpr start, List.nil_append] at calls
        rw [if_pos ⟨by omega, few⟩]
        exact calls
      · rw [if_neg few] at calls
        rw [if_neg (fun bounds => few bounds.2)]
        exact calls

/-- White space in front of the words becomes a part of the first one. -/
theorem start_of_passesWords (terminated : 0 ∈ buf) (size : argv.length = MAXARGC)
    (passes : PassesWords buf argv) :
    startsWhite buf = false ∨ tokens isWhite (cString buf) = [] ∨
      49 < (tokens isWhite (cString buf)).length := by
  rw [PassesWords] at passes
  cases found : tokens isWhite (cString buf) with
  | nil => exact Or.inr (Or.inl rfl)
  | cons first others =>
      have calls := bufArgs_calls terminated size found
      rw [found] at passes
      rw [List.length_cons] at passes ⊢
      by_cases few : others.length + 1 ≤ 49
      · rw [if_pos few] at calls
        rw [if_pos ⟨by omega, few⟩] at passes
        rcases calls with ⟨argv', buf', called, args⟩
        rcases passes with ⟨argv'', buf'', same, words⟩
        rw [called, Option.some.injEq, Outcome.called.injEq] at same
        rcases same with ⟨_, rfl, rfl⟩
        rcases args.words 0 _ List.getElem?_cons_zero with ⟨ptr, isPtr, isArg⟩
        rcases words.words 0 _ List.getElem?_cons_zero with ⟨other, isOther, isFirst⟩
        rw [isPtr, Option.some.injEq, Option.some.injEq] at isOther
        subst isOther
        rw [isArg] at isFirst
        refine Or.inl ((takeWhile_white buf).mp ?_)
        have lengths := congrArg List.length isFirst
        rw [List.length_append] at lengths
        exact List.eq_nil_of_length_eq_zero (by omega)
      · exact Or.inr (Or.inr (by omega))

/-- `buf_args` passes exactly the words on, unless the buffer begins with white space and has
between 1 and 49 words. -/
theorem passesWords_iff (terminated : 0 ∈ buf) (size : argv.length = MAXARGC) :
    PassesWords buf argv ↔ startsWhite buf = false ∨ tokens isWhite (cString buf) = [] ∨
      49 < (tokens isWhite (cString buf)).length :=
  ⟨start_of_passesWords terminated size, passesWords_of_start terminated size⟩

end BufArgs

theorem passesWords_twoWords : PassesWords [97, 32, 98, 0] (List.replicate 50 none) :=
  (passesWords_iff (by decide) rfl).mpr (Or.inl rfl)

/-- A blank in front of the only word. -/
theorem not_passesWords_blank : ¬ PassesWords [32, 97, 0] (List.replicate 50 none) := by
  intro passes
  rcases start_of_passesWords (by decide) rfl passes with start | isNil | many
  · exact absurd start (by decide)
  · exact absurd isNil (by decide)
  · exact absurd many (by decide)

end Apue.Opend.ArgumentVector
