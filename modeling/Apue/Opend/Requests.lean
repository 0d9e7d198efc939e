import Apue.Foundation.Tokens
import Apue.Opend.Passing

/-! # Requests to the open server

`handle_request` of `ipc2/opend` with the functions that it calls, and `csopen` of
`ipc2/open`, which writes the requests. The lines of the log are left out.
-/

namespace Apue.Opend

open Apue.Foundation Ascii

/-! ## The arguments of a request -/

/-- The macro `WHITE` of `bufargs.c`. -/
def isWhite (byte : Byte) : Bool := byte == 32 || byte == 9 || byte == 10

def MAXARGC : Nat := 50

/-- The loop of `buf_args` that collects the arguments behind the first one, with
room for this many of them. -/
def collectArgs : Nat → Bytes → Option (List Bytes)
  | room, rest =>
      match strtok isWhite rest with
      | none => some []
      | some (ptr, rest) =>
          match room with
          | 0 => none
          | room + 1 => (collectArgs room rest).map (ptr :: ·)

/-- The first argument starts where the buffer starts, with the white space in
front of the first token. -/
def bufArgs {Result : Type} (buf : Bytes) (failed : Result) (optfunc : List Bytes → Result) : Result :=
  match strtok isWhite (cString buf) with
  | none => failed
  | some (first, rest) =>
      match collectArgs (MAXARGC - 2) rest with
      | none => failed
      | some args => optfunc (((cString buf).takeWhile isWhite ++ first) :: args)

/-- The variables that the requests of all clients share. -/
structure Globals where
  errmsg : Bytes
  pathname : Bytes
  oflag : Int

def Globals.initial : Globals := ⟨[], [], 0⟩

def CL_OPEN : Bytes := text "open"

def USAGE : Bytes := text "usage: <pathname> <oflag>\n"

def cliArgs (globals : Globals) : List Bytes → Globals × Int
  | [command, path, flag] =>
      if command ≠ CL_OPEN then ({ globals with errmsg := USAGE }, -1)
      else ({ globals with pathname := path, oflag := atoi flag }, 0)
  | _ => ({ globals with errmsg := USAGE }, -1)

/-! ## One request -/

/-- `snprintf` into `errmsg`, which is told of one byte less than there is. -/
def printed (message : Bytes) : Bytes := message.take (MAXLINE - 2)

/-- What `open` returns for a path and a flag: a descriptor, or the text for
`errno`. -/
abbrev OpenFile := Bytes → Int → Except Bytes Int

/-- What a call of `handle_request` leaves and sends, and the call of `open` that it
makes. -/
structure Handled where
  globals : Globals
  reply : List Cell
  opened : Option (Bytes × Int)

def Handled.error (globals : Globals) (errmsg : Bytes) (opened : Option (Bytes × Int)) : Handled :=
  ⟨{ globals with errmsg := errmsg }, sendErr (-1) errmsg, opened⟩

def handleRequest (openFile : OpenFile) (globals : Globals) (buf : Bytes) (uid : Int) : Handled :=
  if buf.getLast? ≠ some 0 then
    .error globals (printed (text "request from uid " ++ signedDecimal uid ++
      text " not null terminated: " ++ padLeft buf.length (cString buf) ++ [newline])) none
  else
    match bufArgs buf (globals, -1) (cliArgs globals) with
    | (globals, result) =>
        if result < 0 then .error globals globals.errmsg none
        else
          match openFile globals.pathname globals.oflag with
          | .error reason =>
              .error globals (printed (text "can't open " ++ globals.pathname ++ text ": " ++
                reason ++ [newline])) (some (globals.pathname, globals.oflag))
          | .ok newfd =>
              ⟨globals, sendFd newfd, some (globals.pathname, globals.oflag)⟩

/-! ## The tokens of a request -/

section Tokens

variable {Result : Type} {failed : Result} {optfunc : List Bytes → Result} {buf first rest : Bytes}
  {others : List Bytes}

theorem collectArgs_eq (room : Nat) (rest : Bytes) :
    collectArgs room rest =
      if (tokens isWhite rest).length ≤ room then some (tokens isWhite rest) else none := by
  induction room generalizing rest with
  | zero =>
      rw [collectArgs, tokens_eq_strtok]
      cases strtok isWhite rest with
      | none => rfl
      | some found => rfl
  | succ room hypothesis =>
      rw [collectArgs, tokens_eq_strtok]
      cases strtok isWhite rest with
      | none => rfl
      | some found =>
          rcases found with ⟨ptr, more⟩
          dsimp only
          rw [hypothesis, List.length_cons]
          split
          · rw [if_pos (by omega), Option.map_some]
          · rw [if_neg (by omega), Option.map_none]

theorem bufArgs_nil (empty : tokens isWhite (cString buf) = []) :
    bufArgs buf failed optfunc = failed := by
  rw [tokens_eq_strtok] at empty
  rw [bufArgs]
  cases isToken : strtok isWhite (cString buf) with
  | none => rfl
  | some found =>
      rw [isToken] at empty
      cases empty

theorem bufArgs_cons (found : tokens isWhite (cString buf) = first :: others) :
    bufArgs buf failed optfunc = if others.length ≤ 48 then
      optfunc (((cString buf).takeWhile isWhite ++ first) :: others) else failed := by
  rw [tokens_eq_strtok] at found
  rw [bufArgs]
  cases isToken : strtok isWhite (cString buf) with
  | none =>
      rw [isToken] at found
      cases found
  | some pair =>
      rcases pair with ⟨token, rest⟩
      rw [isToken] at found
      rcases List.cons.inj found with ⟨rfl, rfl⟩
      dsimp only
      rw [collectArgs_eq, MAXARGC]
      split
      · rename_i tooMany
        rw [if_neg]
        intro few
        rw [if_pos few] at tooMany
        cases tooMany
      · rename_i args few
        split at few
        · rename_i within
          cases few
          rw [if_pos within]
        · cases few

end Tokens

/-! ## Answers and earlier requests -/

/-- A request with what `open` would do at its time. -/
structure ClientRequest where
  openFile : OpenFile
  buf : Bytes
  uid : Int

/-- What earlier requests leave in the variables of the server. -/
def serve (history : List ClientRequest) : Globals :=
  history.foldl (fun globals request =>
    (handleRequest request.openFile globals request.buf request.uid).globals) .initial

/-- The answer to a request does not depend on what was asked before. -/
def AnsweredAlone (buf : Bytes) : Prop :=
  ∀ (openFile : OpenFile) (uid : Int) (history other : List ClientRequest),
    (handleRequest openFile (serve history) buf uid).reply =
      (handleRequest openFile (serve other) buf uid).reply

/-- `buf_args` returns -1 itself, and nobody writes an error message. -/
def NoArguments (buf : Bytes) : Prop :=
  buf.getLast? = some 0 ∧
    (tokens isWhite (cString buf) = [] ∨ MAXARGC ≤ (tokens isWhite (cString buf)).length)

section Answers

variable {openFile : OpenFile} {globals : Globals} {buf : Bytes} {uid : Int}

/-- The arguments of a request, where `buf_args` has them. -/
theorem bufArgs_cases {Result : Type} (failed : Result) (optfunc : List Bytes → Result)
    (terminated : buf.getLast? = some 0) :
    NoArguments buf ∧ bufArgs buf failed optfunc = failed ∨
      ¬ NoArguments buf ∧ ∃ argv, ∀ {Result : Type} (failed : Result) (optfunc : List Bytes → Result),
        bufArgs buf failed optfunc = optfunc argv := by
  cases found : tokens isWhite (cString buf) with
  | nil => exact Or.inl ⟨⟨terminated, Or.inl found⟩, bufArgs_nil found⟩
  | cons first others =>
      by_cases few : others.length ≤ 48
      · right
        refine ⟨?_, _, fun failed optfunc => (bufArgs_cons found).trans (if_pos few)⟩
        rintro ⟨_, empty | many⟩
        · rw [found] at empty
          cases empty
        · rw [found, List.length_cons, MAXARGC] at many
          omega
      · left
        refine ⟨⟨terminated, Or.inr ?_⟩, (bufArgs_cons found).trans (if_neg few)⟩
        rw [found, List.length_cons, MAXARGC]
        omega

theorem reply_of_noArguments (none : NoArguments buf) :
    (handleRequest openFile globals buf uid).reply = sendErr (-1) globals.errmsg := by
  rcases bufArgs_cases (globals, (-1 : Int)) (cliArgs globals) none.1 with ⟨_, failed⟩ | ⟨other, _⟩
  · rw [handleRequest, if_neg (not_not_intro none.1), failed]
    rfl
  · exact absurd none other

/-- Two outcomes of `cli_args` that `handle_request` goes on alike with. -/
structure Alike (here there : Globals × Int) : Prop where
  result : here.2 = there.2
  errmsg : here.2 < 0 → here.1.errmsg = there.1.errmsg
  pathname : ¬ here.2 < 0 → here.1.pathname = there.1.pathname
  oflag : ¬ here.2 < 0 → here.1.oflag = there.1.oflag

theorem alike_usage (globals other : Globals) :
    Alike ({ globals with errmsg := USAGE }, -1) ({ other with errmsg := USAGE }, -1) where
  result := rfl
  errmsg := fun _ => rfl
  pathname := fun positive => absurd (by change (-1 : Int) < 0; decide) positive
  oflag := fun positive => absurd (by change (-1 : Int) < 0; decide) positive

theorem cliArgs_alike (globals other : Globals) (argv : List Bytes) :
    Alike (cliArgs globals argv) (cliArgs other argv) := by
  rcases argv with _ | ⟨command, _ | ⟨path, _ | ⟨flag, _ | ⟨more, rest⟩⟩⟩⟩
  · exact alike_usage globals other
  · exact alike_usage globals other
  · exact alike_usage globals other
  · rw [cliArgs, cliArgs]
    split
    · exact alike_usage globals other
    · exact ⟨rfl, fun negative => absurd negative (Int.lt_irrefl 0), fun _ => rfl, fun _ => rfl⟩
  · exact alike_usage globals other

theorem reply_alike (someArguments : ¬ NoArguments buf) (globals other : Globals) :
    (handleRequest openFile globals buf uid).reply =
      (handleRequest openFile other buf uid).reply := by
  by_cases terminated : buf.getLast? = some 0
  · rcases bufArgs_cases () (fun _ => ()) terminated with ⟨noArguments, _⟩ | ⟨_, argv, parsed⟩
    · exact absurd noArguments someArguments
    · rw [handleRequest, handleRequest, if_neg (not_not_intro terminated),
        if_neg (not_not_intro terminated), parsed, parsed]
      have alike := cliArgs_alike globals other argv
      revert alike
      rcases cliArgs globals argv with ⟨here, result⟩
      rcases cliArgs other argv with ⟨there, otherResult⟩
      intro alike
      cases (show result = otherResult from alike.result)
      dsimp only
      split
      · rename_i negative
        rw [Handled.error, Handled.error, show here.errmsg = there.errmsg from alike.errmsg negative]
      · rename_i positive
        rw [show here.pathname = there.pathname from alike.pathname positive,
          show here.oflag = there.oflag from alike.oflag positive]
        cases openFile there.pathname there.oflag with
        | error reason => rfl
        | ok newfd => rfl
  · rw [handleRequest, handleRequest, if_pos terminated, if_pos terminated]
    rfl

end Answers

/-! ## The requests of a client -/

/-- What `csopen` writes. The flag is printed into a buffer of 12 bytes; `none` when
it does not fit there, which is undefined. -/
def csopenRequest (name : Bytes) (oflag : Int) : Option Bytes :=
  if (space :: signedDecimal oflag ++ [0]).length ≤ 12 then
    some (CL_OPEN ++ [space] ++ name ++ space :: signedDecimal oflag ++ [0])
  else none

/-- The server reads a request, and opens just what the client has asked for, or
`csopen` returns an error. -/
def OpensAsAsked (name : Bytes) (oflag : Int) : Prop :=
  ∃ request, csopenRequest name oflag = some request ∧
    ∀ (openFile : OpenFile) (globals : Globals) (uid : Int) (pieces : List (List Cell)),
      Cut (handleRequest openFile globals (request.take MAXLINE) uid).reply pieces →
      StatusTogether pieces →
      (handleRequest openFile globals (request.take MAXLINE) uid).opened = some (name, oflag) ∨
        ∃ value passed, recvFd writeAll pieces [] = (.returned value, passed) ∧ value < 0

section Requests

variable {openFile : OpenFile} {globals : Globals} {name request : Bytes} {oflag uid : Int}

theorem isSpace_of_isWhite {byte : Byte} (white : isWhite byte = true) : isSpace byte = true := by
  rw [isWhite, Bool.or_eq_true, Bool.or_eq_true, beq_iff_eq, beq_iff_eq, beq_iff_eq] at white
  rcases white with (rfl | rfl) | rfl
  · rfl
  · rfl
  · rfl

theorem tokens_flag (oflag : Int) :
    tokens isWhite (signedDecimal oflag) = [signedDecimal oflag] := by
  apply tokens_eq_singleton (signedDecimal_ne_nil oflag)
  intro byte member
  cases white : isWhite byte with
  | false => rfl
  | true =>
      have blank := isSpace_of_isWhite white
      rw [(signedDecimal_noBlank oflag member).1] at blank
      cases blank

theorem cString_request (noNul : ∀ byte ∈ name, byte ≠ 0) :
    cString (CL_OPEN ++ [space] ++ name ++ space :: signedDecimal oflag ++ [0]) =
      CL_OPEN ++ space :: (name ++ space :: signedDecimal oflag) := by
  rw [cString_append, List.append_assoc, List.append_assoc, List.singleton_append]
  intro byte member
  simp only [List.mem_append, List.mem_cons, List.not_mem_nil, or_false] at member
  rcases member with ((isOpen | rfl) | inName) | rfl | inFlag
  · revert byte
    decide +kernel
  · decide
  · exact noNul byte inName
  · decide
  · exact (signedDecimal_noBlank oflag inFlag).2

theorem tokens_request (name : Bytes) (oflag : Int) :
    tokens isWhite (CL_OPEN ++ space :: (name ++ space :: signedDecimal oflag)) =
      CL_OPEN :: (tokens isWhite name ++ [signedDecimal oflag]) := by
  have isOpen : tokens isWhite CL_OPEN = [CL_OPEN] := by decide
  rw [tokens_append (by rfl), tokens_append (by rfl), tokens_flag, isOpen, List.singleton_append]

/-- How the server goes on with a request of a client. -/
theorem bufArgs_request {Result : Type} (failed : Result) (optfunc : List Bytes → Result)
    (noNul : ∀ byte ∈ name, byte ≠ 0) :
    bufArgs (CL_OPEN ++ [space] ++ name ++ space :: signedDecimal oflag ++ [0]) failed optfunc =
      if (tokens isWhite name).length ≤ 47 then
        optfunc (CL_OPEN :: (tokens isWhite name ++ [signedDecimal oflag])) else failed := by
  have found := tokens_request name oflag
  rw [← cString_request noNul] at found
  rw [bufArgs_cons found, cString_request noNul, List.length_append, List.length_singleton]
  have noBlank : (CL_OPEN ++ space :: (name ++ space :: signedDecimal oflag)).takeWhile isWhite = [] :=
    rfl
  rw [noBlank, List.nil_append]
  simp only [Nat.succ_le_succ_iff]

theorem terminated_request :
    (CL_OPEN ++ [space] ++ name ++ space :: signedDecimal oflag ++ [0]).getLast? = some 0 :=
  List.getLast?_concat

/-- A name that is one token is opened under that token. -/
theorem opened_token {token : Bytes} (noNul : ∀ byte ∈ name, byte ≠ 0)
    (low : -2 ^ 31 ≤ oflag) (high : oflag < 2 ^ 31) (single : tokens isWhite name = [token]) :
    handleRequest openFile globals
        (CL_OPEN ++ [space] ++ name ++ space :: signedDecimal oflag ++ [0]) uid =
      match openFile token oflag with
      | .error reason =>
          .error { globals with pathname := token, oflag := oflag }
            (printed (text "can't open " ++ token ++ text ": " ++ reason ++ [newline]))
            (some (token, oflag))
      | .ok newfd =>
          ⟨{ globals with pathname := token, oflag := oflag }, sendFd newfd, some (token, oflag)⟩ := by
  have few : [token].length ≤ 47 := by
    rw [List.length_singleton]
    decide
  rw [handleRequest, if_neg (not_not_intro terminated_request), bufArgs_request _ _ noNul, single,
    if_pos few, List.singleton_append, cliArgs, if_neg (not_not_intro rfl),
    atoi_signedDecimal low high]
  rfl

/-- Any other name gets an error. -/
theorem reply_error (noNul : ∀ byte ∈ name, byte ≠ 0) (several : (tokens isWhite name).length ≠ 1) :
    ∃ errmsg, (handleRequest openFile globals
      (CL_OPEN ++ [space] ++ name ++ space :: signedDecimal oflag ++ [0]) uid).reply =
        sendErr (-1) errmsg := by
  rw [handleRequest, if_neg (not_not_intro terminated_request), bufArgs_request _ _ noNul]
  by_cases few : (tokens isWhite name).length ≤ 47
  · rw [if_pos few]
    revert several
    rcases tokens isWhite name with _ | ⟨first, _ | ⟨second, others⟩⟩
    · exact fun _ => ⟨USAGE, rfl⟩
    · exact fun several => absurd rfl several
    · refine fun _ => ⟨USAGE, ?_⟩
      cases others with
      | nil => rfl
      | cons third others => rfl
  · rw [if_neg few]
    exact ⟨globals.errmsg, rfl⟩

theorem returns_error {errmsg : Bytes} {pieces : List (List Cell)}
    (cut : Cut (sendErr (-1) errmsg) pieces) (together : StatusTogether pieces) :
    ∃ value passed, recvFd writeAll pieces [] = (.returned value, passed) ∧ value < 0 := by
  have noNul : ∀ byte ∈ cString errmsg, byte ≠ 0 := by
    intro byte member
    simpa using mem_takeWhile member
  have sameMessage : sendErr (-1) errmsg = sendErr (-1) (cString errmsg) := by
    rw [sendErr, sendErr, cString_eq_self noNul]
  rw [sameMessage] at cut
  have accepts : Accepts writeAll := fun _ => rfl
  rcases (delivers_sendErr_iff accepts noNul cut).mpr together with ⟨passed, received, _⟩
  exact ⟨_, passed, received, errorValue_neg _⟩

/-- The flag fits the buffer of `csopen`. -/
theorem csopenRequest_eq (low : -2 ^ 31 ≤ oflag) (high : oflag < 2 ^ 31) :
    csopenRequest name oflag = if -10 ^ 9 < oflag then
      some (CL_OPEN ++ [space] ++ name ++ space :: signedDecimal oflag ++ [0]) else none := by
  have lengths : (space :: signedDecimal oflag ++ [0]).length ≤ 12 ↔ -10 ^ 9 < oflag := by
    rw [List.length_append, List.length_cons, List.length_singleton, signedDecimal]
    split
    · rename_i negative
      have short := @decimal_length_le_iff oflag.natAbs 9 (by decide)
      rw [List.length_cons]
      omega
    · rename_i positive
      have short := @decimal_length_le_iff oflag.natAbs 10 (by decide)
      omega
  rw [csopenRequest]
  simp only [lengths]

/-- The answer with the descriptor 3, in one piece. -/
def oneReply : List (List Cell) := [sendFd 3]

theorem not_opensAsAsked {token : Bytes} (noNul : ∀ byte ∈ name, byte ≠ 0)
    (low : -2 ^ 31 ≤ oflag) (high : oflag < 2 ^ 31)
    (fits : ∀ request ∈ csopenRequest name oflag, request.length ≤ MAXLINE)
    (isToken : tokens isWhite name = [token]) (different : token ≠ name) :
    ¬ OpensAsAsked name oflag := by
  rintro ⟨request, isWritten, asked⟩
  rw [List.take_of_length_le (fits request isWritten)] at asked
  rw [csopenRequest_eq low high] at isWritten
  split at isWritten
  · cases isWritten
    have handled := @opened_token (fun _ _ => .ok 3) .initial name oflag 0 token noNul low high
      isToken
    have cut : Cut (sendFd 3) oneReply := ⟨rfl, by decide, by decide⟩
    have together : StatusTogether oneReply := by
      intro piece member
      cases member
      decide
    rcases asked (fun _ _ => .ok 3) .initial 0 oneReply (by rw [handled]; exact cut) together with
      opened | ⟨value, passed, received, negative⟩
    · rw [handled] at opened
      exact different (Prod.mk.inj (Option.some.inj opened)).1
    · have isThree : recvFd writeAll oneReply [] = (.returned 3, []) := by decide
      rw [isThree] at received
      cases received
      exact absurd negative (by decide)
  · cases isWritten

/-- `csopen` gets what it has asked for, or an error, if and only if the flag fits its
buffer and the name is not one token with white space around it. -/
theorem opensAsAsked_iff (nonempty : name ≠ []) (noNul : ∀ byte ∈ name, byte ≠ 0)
    (low : -2 ^ 31 ≤ oflag) (high : oflag < 2 ^ 31)
    (fits : ∀ request ∈ csopenRequest name oflag, request.length ≤ MAXLINE) :
    OpensAsAsked name oflag ↔ -10 ^ 9 < oflag ∧
      ¬ ((∃ byte ∈ name, isWhite byte = true) ∧ (tokens isWhite name).length = 1) := by
  have isRequest := @csopenRequest_eq name oflag low high
  constructor
  · intro asked
    constructor
    · by_contra tooLong
      rcases asked with ⟨request, isWritten, _⟩
      rw [isRequest, if_neg tooLong] at isWritten
      cases isWritten
    · rintro ⟨⟨byte, inName, white⟩, single⟩
      rcases List.length_eq_one_iff.mp single with ⟨token, isToken⟩
      apply not_opensAsAsked noNul low high fits isToken _ asked
      rintro rfl
      have member : token ∈ tokens isWhite token := by
        rw [isToken]
        exact List.mem_singleton_self token
      rw [(mem_tokens member).2 byte inName] at white
      cases white
  · rintro ⟨flagFits, notAround⟩
    rw [if_pos flagFits] at isRequest
    refine ⟨_, isRequest, fun openFile globals uid pieces cut together => ?_⟩
    rw [List.take_of_length_le (fits _ isRequest)] at cut ⊢
    by_cases single : (tokens isWhite name).length = 1
    · left
      have plain : ∀ byte ∈ name, isWhite byte = false := by
        intro byte inName
        cases white : isWhite byte with
        | false => rfl
        | true => exact absurd ⟨⟨byte, inName, white⟩, single⟩ notAround
      rw [opened_token noNul low high (tokens_eq_singleton nonempty plain)]
      cases openFile name oflag with
      | error reason => rfl
      | ok newfd => rfl
    · right
      rcases reply_error noNul single with ⟨errmsg, isError⟩
      rw [isError] at cut
      exact returns_error cut together

theorem opensAsAsked_plainName : OpensAsAsked [47, 97] 2 :=
  (opensAsAsked_iff (by decide) (by simp) (by decide) (by decide) (by decide)).mpr (by decide +kernel)

/-- With a blank in front of it, another file is opened. -/
theorem not_opensAsAsked_blankName : ¬ OpensAsAsked [32, 97] 0 :=
  not_opensAsAsked (by simp) (by decide) (by decide) (by decide)
    (by decide : tokens isWhite [32, 97] = [[97]]) (by decide)

end Requests

end Apue.Opend
