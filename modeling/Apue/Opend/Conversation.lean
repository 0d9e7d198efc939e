import Apue.Foundation.Run
import Apue.Opend.Requests

/-! # Calls of `csopen` over one connection

A client writes a request and waits for the answer in `recv_fd`. The server takes
whatever a call of `read` returns for one request, as `loop` of `loop.select.c` and
`loop.poll.c` does.
-/

namespace Apue.Opend

open Apue.Foundation Ascii

/-- One connection: what is on its way, the call of `recv_fd` that the client waits
in with what it has passed on, and below them a history. -/
structure Conversation where
  globals : Globals
  toServer : Bytes
  toClient : List Cell
  waiting : Bool
  passed : List Bytes
  dumped : Bool
  /-- The requests of all calls of `csopen`. -/
  asked : List Bytes
  /-- The buffers that the server has handled, with its answers. -/
  replies : List (Bytes × List Cell)
  /-- What the calls of `csopen` have returned and passed on. -/
  results : List (Int × List Bytes)

def Conversation.initial (globals : Globals) : Conversation :=
  ⟨globals, [], [], false, [], false, [], [], []⟩

/-- What can happen next. A read returns some of the bytes that are there; other
clients may change what the server keeps. -/
inductive Move
  | call (name : Bytes) (oflag : Int)
  | read (openFile : OpenFile) (uid : Int) (count : Nat)
  | receive (count : Nat)
  | others (globals : Globals)

/-- What a call of `read` or `recvmsg` with a buffer of `MAXLINE` bytes may return of
the bytes that are there. -/
def Readable (count available : Nat) : Prop := 0 < count ∧ count ≤ MAXLINE ∧ count ≤ available

instance (count available : Nat) : Decidable (Readable count available) :=
  inferInstanceAs (Decidable (_ ∧ _))

def Conversation.step (state : Conversation) : Move → Option Conversation
  | .call name oflag =>
      if state.waiting = true ∨ state.dumped = true then none
      else (csopenRequest name oflag).map fun request =>
        { state with
          toServer := state.toServer ++ request
          waiting := true
          passed := []
          asked := state.asked ++ [request] }
  | .read openFile uid count =>
      if Readable count state.toServer.length then
        let buf := state.toServer.take count
        let handled := handleRequest openFile state.globals buf uid
        some { state with
          globals := handled.globals
          toServer := state.toServer.drop count
          toClient := state.toClient ++ handled.reply
          replies := state.replies ++ [(buf, handled.reply)] }
      else none
  | .receive count =>
      if state.waiting = true ∧ Readable count state.toClient.length then
        let after := { state with toClient := state.toClient.drop count }
        match recvFd writeAll [state.toClient.take count] state.passed with
        | (.waiting, passed) => some { after with passed := passed }
        | (.returned value, passed) => some { after with
            waiting := false
            passed := passed
            results := state.results ++ [(value, passed)] }
        | (.dumped, passed) => some { after with waiting := false, passed := passed, dumped := true }
      else none
  | .others globals => some { state with globals := globals }

/-- A read of the server returns the whole request, and no `recvmsg` of the client
ends between a NUL byte and its status byte. -/
def Undivided (state : Conversation) : Move → Prop
  | .read _ _ count => count = state.toServer.length
  | .receive count => state.toClient.length ≠ count + 1
  | _ => True

instance (state : Conversation) : (move : Move) → Decidable (Undivided state move)
  | .call _ _ => .isTrue trivial
  | .read _ _ count => inferInstanceAs (Decidable (count = state.toServer.length))
  | .receive count => inferInstanceAs (Decidable (state.toClient.length ≠ count + 1))
  | .others _ => .isTrue trivial

/-- A call of `csopen` returns and passes on what its answer says. -/
def Says (reply : List Cell) (result : Int × List Bytes) : Prop :=
  ∃ passed, recvFd writeAll [reply] [] = (.returned result.1, passed) ∧
    passed.flatten = result.2.flatten

/-- There is an answer for each call of `csopen` that has returned, it is the answer
to its request, and the call has returned what it says. Only the last call may still
wait, and then there is something to read. -/
structure Paired (state : Conversation) : Prop where
  alive : state.dumped = false
  own : state.replies.map Prod.fst <+: state.asked
  returned : List.Forall₂ (fun reply result => Says (Prod.snd reply) result)
    (state.replies.take state.results.length) state.results
  idle : state.waiting = false → state.replies.length = state.asked.length ∧
    state.results.length = state.asked.length
  busy : state.waiting = true → state.asked.length = state.results.length + 1 ∧
    (state.toServer ≠ [] ∨ state.toClient ≠ [])

/-! ## Answers -/

/-- An answer is a text, a NUL byte and a status byte. -/
structure Answer (reply : List Cell) (text : Bytes) (first second : Cell) : Prop where
  cells : reply = plainCells text ++ [first, second]
  noNul : ∀ byte ∈ text, byte ≠ 0
  final : FinalCells first second

theorem exists_answer_sendErr (errmsg : Bytes) :
    ∃ text first second, Answer (sendErr (-1) errmsg) text first second := by
  refine ⟨cString errmsg, _, _, ⟨sendErr_eq _ _, ?_, finalCells_error _⟩⟩
  intro byte member
  simpa using mem_takeWhile member

theorem exists_answer_sendFd (newfd : Int) :
    ∃ text first second, Answer (sendFd newfd) text first second := by
  rw [sendFd]
  split
  · exact ⟨[], _, _, ⟨rfl, fun _ member => absurd member List.not_mem_nil, finalCells_error _⟩⟩
  · exact ⟨[], _, _, ⟨rfl, fun _ member => absurd member List.not_mem_nil, ⟨rfl, fun _ => rfl⟩⟩⟩

theorem exists_answer (openFile : OpenFile) (globals : Globals) (buf : Bytes) (uid : Int) :
    ∃ text first second,
      Answer (handleRequest openFile globals buf uid).reply text first second := by
  rw [handleRequest]
  split
  · exact exists_answer_sendErr _
  · dsimp only
    split
    · exact exists_answer_sendErr _
    · split
      · exact exists_answer_sendErr _
      · exact exists_answer_sendFd _

/-! ## What holds at all times -/

/-- The client waits for the answer to the last request. -/
inductive Phase (state : Conversation) : Prop
  | idle (isIdle : state.waiting = false) (noRequest : state.toServer = [])
      (noAnswer : state.toClient = []) (answered : state.replies.map Prod.fst = state.asked)
      (counts : state.results.length = state.asked.length)
  | requested (isWaiting : state.waiting = true) (before : List Bytes) (request : Bytes)
      (nonempty : request ≠ []) (isAsked : state.asked = before ++ [request])
      (isThere : state.toServer = request) (noAnswer : state.toClient = [])
      (nothing : state.passed = []) (answered : state.replies.map Prod.fst = before)
      (counts : state.results.length = before.length)
  | replying (isWaiting : state.waiting = true) (before : List (Bytes × List Cell))
      (request : Bytes) (reply : List Cell) (text rest : Bytes) (first second : Cell)
      (answer : Answer reply text first second) (noRequest : state.toServer = [])
      (split : text = state.passed.flatten ++ rest)
      (isThere : state.toClient = plainCells rest ++ [first, second])
      (answered : state.replies = before ++ [(request, reply)])
      (isAsked : state.asked = state.replies.map Prod.fst)
      (counts : state.results.length = before.length)

structure Conversing (state : Conversation) : Prop where
  alive : state.dumped = false
  returned : List.Forall₂ (fun reply result => Says (Prod.snd reply) result)
    (state.replies.take state.results.length) state.results
  phase : Phase state

section Conversing

variable {state next : Conversation}

theorem Conversing.paired (conversing : Conversing state) : Paired state where
  alive := conversing.alive
  returned := conversing.returned
  own := by
    cases conversing.phase with
    | idle isIdle noRequest noAnswer answered counts =>
        rw [answered]
    | requested isWaiting before request nonempty isAsked isThere noAnswer nothing answered counts =>
        rw [answered, isAsked]
        exact List.prefix_append _ _
    | replying isWaiting before request reply text rest first second answer noRequest split isThere
        answered isAsked counts =>
        rw [isAsked]
  idle := by
    intro isIdle
    cases conversing.phase with
    | idle _ noRequest noAnswer answered counts =>
        rw [← answered, List.length_map] at counts ⊢
        exact ⟨rfl, counts⟩
    | requested isWaiting =>
        rw [isIdle] at isWaiting
        cases isWaiting
    | replying isWaiting =>
        rw [isIdle] at isWaiting
        cases isWaiting
  busy := by
    intro busy
    cases conversing.phase with
    | idle isIdle =>
        rw [isIdle] at busy
        cases busy
    | requested isWaiting before request nonempty isAsked isThere noAnswer nothing answered counts =>
        rw [isAsked, isThere, counts, List.length_append, List.length_singleton]
        exact ⟨rfl, Or.inl nonempty⟩
    | replying isWaiting before request reply text rest first second answer noRequest split isThere
        answered isAsked counts =>
        rw [isAsked, isThere, counts, List.length_map, answered, List.length_append,
          List.length_singleton]
        exact ⟨rfl, Or.inr (by simp)⟩

theorem Conversing.initial (globals : Globals) : Conversing (.initial globals) where
  alive := rfl
  returned := .nil
  phase := .idle rfl rfl rfl rfl rfl

theorem Conversing.call (conversing : Conversing state) {name : Bytes} {oflag : Int}
    (stepped : state.step (.call name oflag) = some next) : Conversing next := by
  rw [Conversation.step] at stepped
  split at stepped
  · cases stepped
  rename_i free
  rw [not_or, Bool.not_eq_true] at free
  rcases Option.map_eq_some_iff.mp stepped with ⟨request, isRequest, rfl⟩
  refine ⟨conversing.alive, conversing.returned, ?_⟩
  have nonempty : request ≠ [] := by
    rintro rfl
    rw [csopenRequest] at isRequest
    split at isRequest
    · cases isRequest
    · cases isRequest
  cases conversing.phase with
  | idle _ noRequest noAnswer answered counts =>
      have isThere : state.toServer ++ request = request := by
        rw [noRequest, List.nil_append]
      exact .requested rfl state.asked request nonempty rfl isThere noAnswer rfl answered counts
  | requested isWaiting =>
      rw [free.1] at isWaiting
      cases isWaiting
  | replying isWaiting =>
      rw [free.1] at isWaiting
      cases isWaiting

theorem Conversing.read (conversing : Conversing state) {openFile : OpenFile} {uid : Int}
    {count : Nat} (whole : count = state.toServer.length)
    (stepped : state.step (.read openFile uid count) = some next) : Conversing next := by
  rw [Conversation.step] at stepped
  split at stepped
  swap
  · cases stepped
  rename_i readable
  cases stepped
  subst whole
  have someRequest : state.toServer ≠ [] := List.length_pos_iff.mp readable.1
  cases conversing.phase with
  | idle _ noRequest => exact absurd noRequest someRequest
  | replying _ _ _ _ _ _ _ _ _ noRequest => exact absurd noRequest someRequest
  | requested isWaiting before request nonempty isAsked isThere noAnswer nothing answered counts =>
      rcases exists_answer openFile state.globals
        (state.toServer.take state.toServer.length) uid with ⟨text, first, second, answer⟩
      have oneEach : state.results.length = state.replies.length := by
        rw [counts, ← answered, List.length_map]
      refine ⟨conversing.alive, ?_, ?_⟩
      · dsimp only
        rw [List.take_append_of_le_length (Nat.le_of_eq oneEach)]
        exact conversing.returned
      · have isText : text = state.passed.flatten ++ text := by
          rw [nothing]
          rfl
        have isReply := answer.cells
        refine .replying isWaiting state.replies _ _ text text first second answer List.drop_length
          isText ?_ rfl ?_ oneEach
        · dsimp only
          rw [noAnswer, List.nil_append]
          exact isReply
        · dsimp only
          rw [isAsked, List.map_append, answered, List.map_singleton, List.take_length, isThere]

/-- What a call has passed on when its answer has come to its end. -/
theorem flatten_passed (passed : List Bytes) (rest : Bytes) :
    (if plainCells rest = [] then passed else passed ++ [(plainCells rest).map Cell.byte]).flatten =
      passed.flatten ++ rest := by
  rw [plainCells_bytes]
  cases rest with
  | nil => rw [if_pos (show plainCells [] = [] from rfl), List.append_nil]
  | cons byte rest =>
      rw [if_neg (by rw [plainCells, List.map_cons]; exact List.cons_ne_nil _ _),
        List.flatten_append, List.flatten_singleton]

theorem Answer.tells {reply : List Cell} {text : Bytes} {first second : Cell}
    (answer : Answer reply text first second) {passed : List Bytes} (isText : passed.flatten = text) :
    Says reply (finalValue first second, passed) := by
  have accepts : Accepts writeAll := fun _ => rfl
  refine ⟨if plainCells text = [] then [] else [] ++ [(plainCells text).map Cell.byte], ?_, ?_⟩
  · rw [answer.cells, recvFd_final accepts answer.final (plainText_plainCells answer.noNul)]
  · rw [flatten_passed, isText]
    rfl

theorem Conversing.receive (conversing : Conversing state) {count : Nat}
    (together : state.toClient.length ≠ count + 1)
    (stepped : state.step (.receive count) = some next) : Conversing next := by
  have accepts : Accepts writeAll := fun _ => rfl
  rw [Conversation.step] at stepped
  split at stepped
  swap
  · cases stepped
  rename_i readable
  have someAnswer : state.toClient ≠ [] := by
    intro noAnswer
    have := readable.2.1
    have := readable.2.2.2
    rw [noAnswer, List.length_nil] at this
    omega
  cases conversing.phase with
  | idle _ _ noAnswer => exact absurd noAnswer someAnswer
  | requested _ _ _ _ _ _ noAnswer => exact absurd noAnswer someAnswer
  | replying isWaiting before request reply text rest first second answer noRequest split isThere
      answered isAsked counts =>
      have noNulRest : ∀ byte ∈ rest, byte ≠ 0 := by
        intro byte member
        apply answer.noNul byte
        rw [split]
        exact List.mem_append_right _ member
      rw [isThere, List.length_append, plainCells_length] at together
      have within := readable.2.2.2
      rw [isThere, List.length_append, plainCells_length] at within
      have final : [first, second].length = 2 := rfl
      by_cases inText : count ≤ rest.length
      · -- The piece ends within the text.
        have piece : state.toClient.take count = plainCells (rest.take count) := by
          rw [isThere, List.take_append_of_le_length (by rw [plainCells_length]; exact inText),
            plainCells, plainCells, List.map_take]
        have behind : state.toClient.drop count = plainCells (rest.drop count) ++ [first, second] := by
          rw [isThere, List.drop_append_of_le_length (by rw [plainCells_length]; exact inText),
            plainCells, plainCells, List.map_drop]
        have nonempty : plainCells (rest.take count) ≠ [] := by
          apply List.length_pos_iff.mp
          rw [plainCells_length, List.length_take]
          have := readable.2.1
          omega
        have plain : PlainText (plainCells (rest.take count)) :=
          plainText_plainCells fun byte member => noNulRest byte (List.mem_of_mem_take member)
        rw [piece, recvFd_plain accepts nonempty plain, recvFd, plainCells_bytes] at stepped
        cases stepped
        refine ⟨conversing.alive, conversing.returned, ?_⟩
        refine .replying isWaiting before request reply text (rest.drop count) first second answer
          noRequest ?_ behind answered isAsked counts
        dsimp only
        rw [List.flatten_append, List.flatten_singleton, List.append_assoc, List.take_append_drop]
        exact split
      · -- The piece is all that is left.
        have isWhole : count = state.toClient.length := by
          rw [isThere, List.length_append, plainCells_length]
          omega
        rw [isWhole, List.take_length, isThere,
          recvFd_final accepts answer.final (plainText_plainCells noNulRest), List.drop_length]
          at stepped
        cases stepped
        have isText := flatten_passed state.passed rest
        rw [← split] at isText
        have oneMore : state.replies.length = state.results.length + 1 := by
          rw [answered, counts, List.length_append, List.length_singleton]
        refine ⟨conversing.alive, ?_, .idle rfl noRequest rfl isAsked.symm ?_⟩
        · dsimp only
          have earlier := conversing.returned
          rw [List.length_append, List.length_singleton, ← oneMore, List.take_length]
          rw [answered, counts, List.take_left] at earlier
          rw [answered]
          exact List.rel_append earlier (.cons (answer.tells isText) .nil)
        · dsimp only
          rw [List.length_append, List.length_singleton, ← oneMore, isAsked, List.length_map]

theorem Conversing.step (conversing : Conversing state) {move : Move}
    (undivided : Undivided state move) (stepped : state.step move = some next) :
    Conversing next := by
  cases move with
  | call name oflag => exact conversing.call stepped
  | read openFile uid count => exact conversing.read undivided stepped
  | receive count => exact conversing.receive undivided stepped
  | others globals =>
      cases stepped
      refine ⟨conversing.alive, conversing.returned, ?_⟩
      cases conversing.phase with
      | idle isIdle noRequest noAnswer answered counts =>
          exact .idle isIdle noRequest noAnswer answered counts
      | requested isWaiting before request nonempty isAsked isThere noAnswer nothing answered counts =>
          exact .requested isWaiting before request nonempty isAsked isThere noAnswer nothing answered
            counts
      | replying isWaiting before request reply text rest first second answer noRequest split isThere
          answered isAsked counts =>
          exact .replying isWaiting before request reply text rest first second answer noRequest split
            isThere answered isAsked counts

end Conversing

/-- A file is opened, and the descriptor arrives. -/
def shortMoves : List Move :=
  [.call [47, 97] 0, .read (fun _ _ => .ok 3) 0 10, .receive 2]

/-- A request of more than 4096 bytes takes two reads, and each of them is answered. -/
def longName : Bytes := List.replicate 4100 97

def longMoves : List Move :=
  [.call longName 0, .read (fun _ _ => .ok 3) 0 4096, .read (fun _ _ => .ok 3) 0 12]

theorem read_step {state : Conversation} {openFile : OpenFile} {uid : Int} {count : Nat}
    (readable : Readable count state.toServer.length) :
    ∃ next, state.step (.read openFile uid count) = some next ∧
      next.toServer = state.toServer.drop count ∧ next.asked = state.asked ∧
      next.replies.length = state.replies.length + 1 := by
  rw [Conversation.step, if_pos readable]
  exact ⟨_, rfl, rfl, rfl, List.length_append⟩

end Apue.Opend
