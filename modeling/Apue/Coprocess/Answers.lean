import Apue.Coprocess.Lockstep
import Apue.Foundation.Buffers

/-! # The answers to the lines

However `pipe4` and `add2` take turns, at most one message is on its way, and the parent prints
the answers to its lines in order. They wait for ever behind a line that begins with a NUL byte:
nothing is sent for it.
-/

namespace Apue.Coprocess

open Apue.Foundation Ascii

/-! ## The lines of the input -/

section Lines

variable {input : Bytes}

theorem firstLine_length (count : Nat) (input : Bytes) : (firstLine count input).length ≤ count := by
  induction count generalizing input with
  | zero => exact Nat.le_of_eq rfl
  | succ count hypothesis =>
      cases input with
      | nil => exact Nat.zero_le _
      | cons byte rest =>
          rw [firstLine]
          split
          · exact Nat.succ_le_succ (Nat.zero_le _)
          · exact Nat.succ_le_succ (hypothesis rest)

theorem firstLine_pos {count : Nat} (isMore : input ≠ []) : 0 < (firstLine (count + 1) input).length := by
  rcases List.exists_cons_of_ne_nil isMore with ⟨byte, rest, rfl⟩
  rw [firstLine]
  split
  · exact Nat.zero_lt_one
  · exact Nat.succ_pos _

def lines (input : Bytes) : List Bytes :=
  if isMore : input ≠ [] then
    firstLine (MAXLINE - 1) input :: lines (input.drop (firstLine (MAXLINE - 1) input).length)
  else []
termination_by input.length
decreasing_by
  have taken : 0 < (firstLine (MAXLINE - 1) input).length := firstLine_pos isMore
  have there : 0 < input.length := List.length_pos_iff.mpr isMore
  rw [List.length_drop]
  omega

theorem lines_of_more (isMore : input ≠ []) : lines input =
    firstLine (MAXLINE - 1) input :: lines (input.drop (firstLine (MAXLINE - 1) input).length) := by
  rw [lines, dif_pos isMore]

@[simp] theorem lines_nil : lines [] = [] := by
  rw [lines, dif_neg (by simp)]

end Lines

/-! ## What has been said -/

/-- A line that something is sent for, and the answer to it. -/
structure Replied (line reply : Bytes) : Prop where
  sent : cString line ≠ []
  answered : answer (cString line) = some reply

/-- The lines that have their answers printed, the line that is talked about, and the others. -/
structure Talk (total : List Bytes) (answered : List (Bytes × Bytes)) (pending : List Bytes)
    (pipes : Pipes) : Prop where
  split : total = answered.map Prod.fst ++ pending ++ lines pipes.input
  each : ∀ exchange ∈ answered, Replied exchange.1 exchange.2
  output : pipes.output = (answered.map Prod.snd).flatten
  parentOpen : pipes.parentOpen = true

inductive Leaving (faults : Prop) : Child → Bool → Prop
  | quitting (faulty : faults) : Leaving faults quit true
  | gone (faulty : faults) : Leaving faults (.done ()) false

/-- The child reads, or is about to end. -/
inductive Resting (faults : Prop) (unread : Nat) : Child → Bool → Prop
  | idle {rounds : Nat} (enough : unread < rounds) : Resting faults unread (add2 rounds) true
  | leaving {child : Child} {childOpen : Bool} (leaving : Leaving faults child childOpen) :
      Resting faults unread child childOpen

/-- What the parent has printed in the end, or the message of its signal handler behind it. -/
structure Told (total : List Bytes) (ending : Ending) (output : Bytes) : Prop where
  printed : ∃ answered rest, total = List.map Prod.fst answered ++ rest ∧
    (∀ exchange ∈ answered, Replied exchange.1 exchange.2) ∧
    (output <+: (answered.map Prod.snd).flatten ∨ ending = .sigpipe ∧ ∃ count, output =
      (answered.map Prod.snd).flatten ++ (text "SIGPIPE caught\n").take count) ∧
    (ending = .finished → rest = [] ∧ output = (answered.map Prod.snd).flatten)

/-- Without faults the parent ends at the end of its input, and then the child. -/
inductive Closing : Child → Bool → Prop
  | idle (rounds : Nat) : Closing (add2 (rounds + 1)) true
  | quitting : Closing quit true
  | gone : Closing (.done ()) false

structure Settled (ending : Ending) (child : Child) (pipes : Pipes) : Prop where
  finished : ending = .finished
  closing : Closing child pipes.childOpen
  noRequests : pipes.requests = []
  noReplies : pipes.replies = []

abbrev Conversation : Type := Dialogue ParentCall ParentResponse Ending ChildCall ChildResponse Unit Pipes

/-- Where the two have come to. -/
inductive Phase (faults : Prop) (total : List Bytes) : Conversation → Prop
  | reading {rounds : Nat} {child : Child} {pipes : Pipes} {answered : List (Bytes × Bytes)}
      (talk : Talk total answered [] pipes) (enough : (lines pipes.input).length < rounds)
      (resting : Resting faults (lines pipes.input).length child pipes.childOpen)
      (noRequests : pipes.requests = []) (noReplies : pipes.replies = []) :
      Phase faults total ⟨pipe4 rounds, child, pipes⟩
  | sending {rounds : Nat} {child : Child} {pipes : Pipes} {answered : List (Bytes × Bytes)} {line : Bytes}
      (talk : Talk total answered [line] pipes) (short : line.length < MAXLINE)
      (enough : (lines pipes.input).length < rounds)
      (resting : Resting faults ((lines pipes.input).length + 1) child pipes.childOpen)
      (noRequests : pipes.requests = []) (noReplies : pipes.replies = []) :
      Phase faults total ⟨converse line (pipe4 rounds), child, pipes⟩
  | asked {rounds : Nat} {child : Child} {pipes : Pipes} {answered : List (Bytes × Bytes)} {line : Bytes}
      (talk : Talk total answered [line] pipes) (short : line.length < MAXLINE)
      (enough : (lines pipes.input).length < rounds)
      (resting : Resting faults ((lines pipes.input).length + 1) child pipes.childOpen)
      (isRequest : pipes.requests = cString line) (noReplies : pipes.replies = []) :
      Phase faults total ⟨receive (pipe4 rounds), child, pipes⟩
  | answering {rounds childRounds : Nat} {pipes : Pipes} {answered : List (Bytes × Bytes)}
      {line reply : Bytes} (talk : Talk total answered [line] pipes) (replied : Replied line reply)
      (enough : (lines pipes.input).length < rounds)
      (childEnough : (lines pipes.input).length < childRounds) (childOpen : pipes.childOpen = true)
      (noRequests : pipes.requests = []) (noReplies : pipes.replies = []) :
      Phase faults total ⟨receive (pipe4 rounds), respond reply (add2 childRounds), pipes⟩
  | undefined {rounds : Nat} {pipes : Pipes} {answered : List (Bytes × Bytes)} {line : Bytes}
      (talk : Talk total answered [line] pipes) (noAnswer : answer (cString line) = none)
      (childOpen : pipes.childOpen = true) (noReplies : pipes.replies = []) :
      Phase faults total ⟨receive (pipe4 rounds), overflow, pipes⟩
  | answered {rounds : Nat} {child : Child} {pipes : Pipes} {answered : List (Bytes × Bytes)}
      {line reply : Bytes} (talk : Talk total answered [line] pipes) (replied : Replied line reply)
      (enough : (lines pipes.input).length < rounds)
      (resting : Resting faults (lines pipes.input).length child pipes.childOpen)
      (noRequests : pipes.requests = []) (isReply : pipes.replies = reply) :
      Phase faults total ⟨receive (pipe4 rounds), child, pipes⟩
  | deserted {rounds : Nat} {child : Child} {pipes : Pipes} {answered : List (Bytes × Bytes)}
      {line : Bytes} (talk : Talk total answered [line] pipes)
      (leaving : Leaving faults child pipes.childOpen) (noReplies : pipes.replies = []) :
      Phase faults total ⟨receive (pipe4 rounds), child, pipes⟩
  | printing {rounds : Nat} {child : Child} {pipes : Pipes} {answered : List (Bytes × Bytes)}
      {line reply : Bytes} (talk : Talk total answered [line] pipes) (replied : Replied line reply)
      (enough : (lines pipes.input).length < rounds)
      (resting : Resting faults (lines pipes.input).length child pipes.childOpen)
      (noRequests : pipes.requests = []) (noReplies : pipes.replies = []) :
      Phase faults total ⟨print reply (pipe4 rounds), child, pipes⟩
  | killed {child : Child} {pipes : Pipes} {answered : List (Bytes × Bytes)} {line : Bytes}
      (faulty : faults) (talk : Talk total answered [line] pipes) :
      Phase faults total ⟨sigPipe, child, pipes⟩
  | ending {ending : Ending} {child : Child} {pipes : Pipes} (told : Told total ending pipes.output)
      (settled : faults ∨ Settled ending child pipes) (parentOpen : pipes.parentOpen = true) :
      Phase faults total ⟨leave ending, child, pipes⟩
  | ended {ending : Ending} {child : Child} {pipes : Pipes} (told : Told total ending pipes.output)
      (settled : faults ∨ Settled ending child pipes) (parentOpen : pipes.parentOpen = false) :
      Phase faults total ⟨.done ending, child, pipes⟩

/-! ## The steps of the child -/

section Steps

variable {capacity : Nat} {faults : Prop} {total : List Bytes} {answered : List (Bytes × Bytes)}
  {pending : List Bytes} {line reply : Bytes} {unread : Nat} {pipes after : Pipes} {child : Child}
  {parent : Parent} {now next : Conversation}

theorem childOutcomes_keep {command : ChildCall} {response : ChildResponse command}
    (answered : ChildOutcomes capacity faults command pipes response after) :
    after.input = pipes.input ∧ after.output = pipes.output ∧ after.parentOpen = pipes.parentOpen := by
  cases answered <;> exact ⟨rfl, rfl, rfl⟩

theorem Talk.of_same (talk : Talk total answered pending pipes) (input : after.input = pipes.input)
    (output : after.output = pipes.output) (parentOpen : after.parentOpen = pipes.parentOpen) :
    Talk total answered pending after where
  split := by
    rw [input]
    exact talk.split
  each := talk.each
  output := output.trans talk.output
  parentOpen := parentOpen.trans talk.parentOpen

/-- A child that is about to end closes its pipes and does nothing else. -/
theorem Leaving.step {command : ChildCall} {rest : ChildResponse command → Child}
    {response : ChildResponse command} (leaving : Leaving faults child pipes.childOpen)
    (isCall : child = .call command rest)
    (answered : ChildOutcomes capacity faults command pipes response after) :
    after = { pipes with childOpen := false } ∧ Leaving faults (rest response) false := by
  generalize pipes.childOpen = childOpen at leaving
  cases leaving with
  | quitting faulty =>
      cases isCall
      cases answered
      exact ⟨rfl, .gone faulty⟩
  | gone => cases isCall

/-- A child that waits for a line stays where it is, or fails. -/
theorem Resting.step {command : ChildCall} {rest : ChildResponse command → Child}
    {response : ChildResponse command} (resting : Resting faults unread child pipes.childOpen)
    (noRequests : pipes.requests = []) (parentOpen : pipes.parentOpen = true)
    (isCall : child = .call command rest)
    (answered : ChildOutcomes capacity faults command pipes response after) :
    ∃ childOpen, after = { pipes with childOpen := childOpen } ∧
      Leaving faults (rest response) childOpen := by
  generalize isOpen : pipes.childOpen = childOpen at resting
  cases resting with
  | @idle rounds enough =>
      cases rounds with
      | zero => exact absurd enough (Nat.not_lt_zero _)
      | succ rounds =>
          cases isCall
          cases answered with
          | read isThere => exact absurd noRequests isThere
          | readEnd _ isClosed =>
              rw [parentOpen] at isClosed
              cases isClosed
          | readFails faulty =>
              refine ⟨pipes.childOpen, rfl, ?_⟩
              rw [isOpen]
              exact .quitting faulty
  | leaving leaving =>
      rw [← isOpen] at leaving
      exact ⟨false, leaving.step isCall answered⟩

theorem Settled.step {command : ChildCall} {rest : ChildResponse command → Child}
    {response : ChildResponse command} {ending : Ending} (settled : Settled ending child pipes)
    (isCall : child = .call command rest)
    (answered : ChildOutcomes capacity faults command pipes response after) :
    faults ∨ Settled ending (rest response) after := by
  rcases settled with ⟨finished, closing, noRequests, noReplies⟩
  generalize isOpen : pipes.childOpen = childOpen at closing
  cases closing with
  | idle rounds =>
      cases isCall
      cases answered with
      | read isThere => exact absurd noRequests isThere
      | readEnd =>
          refine Or.inr ⟨finished, ?_, noRequests, noReplies⟩
          rw [isOpen]
          exact .quitting
      | readFails faulty => exact Or.inl faulty
  | quitting =>
      cases isCall
      cases answered
      exact Or.inr ⟨finished, .gone, noRequests, noReplies⟩
  | gone => cases isCall

theorem cString_cString (line : Bytes) : cString (cString line) = cString line :=
  cString_eq_self (cString_noNul line)

theorem cString_length_le (line : Bytes) : (cString line).length ≤ line.length :=
  (List.takeWhile_prefix _).length_le

/-- The child has read a line. -/
theorem Phase.asked_read {rounds childRounds : Nat} (talk : Talk total answered [line] pipes)
    (short : line.length < MAXLINE) (enough : (lines pipes.input).length < rounds)
    (childEnough : (lines pipes.input).length < childRounds) (childOpen : pipes.childOpen = true)
    (noRequests : pipes.requests = []) (noReplies : pipes.replies = []) (sent : cString line ≠ []) :
    Phase faults total ⟨receive (pipe4 rounds), handle (cString line) (add2 childRounds), pipes⟩ := by
  have notFull : (cString line).length ≠ MAXLINE := by
    have shorter := cString_length_le line
    omega
  rw [handle, if_neg notFull, cString_cString]
  cases isAnswer : answer (cString line) with
  | none => exact .undefined talk isAnswer childOpen noReplies
  | some reply => exact .answering talk ⟨sent, isAnswer⟩ enough childEnough childOpen noRequests noReplies

theorem Phase.right {command : ChildCall} {rest : ChildResponse command → Child}
    {response : ChildResponse command} (phase : Phase faults total now)
    (isCall : now.right = .call command rest)
    (answered : ChildOutcomes capacity faults command now.state response after) :
    Phase faults total ⟨now.left, rest response, after⟩ := by
  cases phase with
  | reading talk enough resting noRequests noReplies =>
      rcases resting.step noRequests talk.parentOpen isCall answered with ⟨childOpen, rfl, leaving⟩
      exact .reading (talk.of_same rfl rfl rfl) enough (.leaving leaving) noRequests noReplies
  | sending talk short enough resting noRequests noReplies =>
      rcases resting.step noRequests talk.parentOpen isCall answered with ⟨childOpen, rfl, leaving⟩
      exact .sending (talk.of_same rfl rfl rfl) short enough (.leaving leaving) noRequests noReplies
  | @asked rounds child pipes _ line talk short enough resting isRequest noReplies =>
      dsimp only at isCall answered ⊢
      generalize isOpen : pipes.childOpen = childOpen at resting
      cases resting with
      | leaving leaving =>
          rw [← isOpen] at leaving
          rcases leaving.step isCall answered with ⟨rfl, gone⟩
          exact .asked (talk.of_same rfl rfl rfl) short enough (.leaving gone) isRequest noReplies
      | @idle childRounds childEnough =>
          cases childRounds with
          | zero => exact absurd childEnough (Nat.not_lt_zero _)
          | succ childRounds =>
              cases isCall
              cases answered with
              | readEnd _ isClosed =>
                  rw [talk.parentOpen] at isClosed
                  cases isClosed
              | readFails faulty =>
                  refine .asked talk short enough (.leaving ?_) isRequest noReplies
                  rw [isOpen]
                  exact .quitting faulty
              | read isThere =>
                  have fits : (cString line).length ≤ MAXLINE :=
                    Nat.le_of_lt (Nat.lt_of_le_of_lt (cString_length_le line) short)
                  rw [isRequest] at isThere
                  rw [isRequest, List.take_of_length_le fits, List.drop_eq_nil_of_le fits]
                  dsimp only
                  rw [proceed_of_ne _ isThere]
                  exact .asked_read (talk.of_same rfl rfl rfl) short enough
                    (Nat.lt_of_succ_lt_succ childEnough) isOpen rfl noReplies isThere
  | answering talk replied enough childEnough childOpen noRequests noReplies =>
      cases isCall
      cases answered with
      | writeFails faulty =>
          refine .deserted talk ?_ noReplies
          rw [childOpen]
          exact .quitting faulty
      | sigpipe isClosed =>
          rw [talk.parentOpen] at isClosed
          cases isClosed
      | write =>
          dsimp only
          rw [if_pos rfl, noReplies, List.nil_append]
          refine .answered (talk.of_same rfl rfl rfl) replied enough ?_ noRequests rfl
          rw [childOpen]
          exact .idle childEnough
  | undefined talk noAnswer childOpen noReplies =>
      cases isCall
      cases answered
  | answered talk replied enough resting noRequests isReply =>
      rcases resting.step noRequests talk.parentOpen isCall answered with ⟨childOpen, rfl, leaving⟩
      exact .answered (talk.of_same rfl rfl rfl) replied enough (.leaving leaving) noRequests isReply
  | deserted talk leaving noReplies =>
      rcases leaving.step isCall answered with ⟨rfl, gone⟩
      exact .deserted (talk.of_same rfl rfl rfl) gone noReplies
  | printing talk replied enough resting noRequests noReplies =>
      rcases resting.step noRequests talk.parentOpen isCall answered with ⟨childOpen, rfl, leaving⟩
      exact .printing (talk.of_same rfl rfl rfl) replied enough (.leaving leaving) noRequests noReplies
  | killed faulty talk =>
      rcases childOutcomes_keep answered with ⟨input, output, parentOpen⟩
      exact .killed faulty (talk.of_same input output parentOpen)
  | ending told settled parentOpen =>
      rcases childOutcomes_keep answered with ⟨_, output, sameOpen⟩
      rw [← output] at told
      refine .ending told ?_ (sameOpen.trans parentOpen)
      rcases settled with faulty | settled
      · exact Or.inl faulty
      · exact settled.step isCall answered
  | ended told settled parentOpen =>
      rcases childOutcomes_keep answered with ⟨_, output, sameOpen⟩
      rw [← output] at told
      refine .ended told ?_ (sameOpen.trans parentOpen)
      rcases settled with faulty | settled
      · exact Or.inl faulty
      · exact settled.step isCall answered

/-! ## The steps of the parent -/

theorem Talk.told (talk : Talk total answered pending pipes) {ending : Ending}
    (notFinished : ending ≠ .finished) : Told total ending pipes.output where
  printed := by
    refine ⟨answered, pending ++ lines pipes.input, ?_, talk.each, Or.inl ?_, fun isFinished =>
      absurd isFinished notFinished⟩
    · rw [← List.append_assoc]
      exact talk.split
    · rw [talk.output]

theorem Talk.told_sigpipe (talk : Talk total answered pending pipes) (count : Nat) :
    Told total .sigpipe (pipes.output ++ (text "SIGPIPE caught\n").take count) where
  printed := by
    refine ⟨answered, pending ++ lines pipes.input, ?_, talk.each, Or.inr ⟨rfl, count, ?_⟩,
      fun isFinished => ?_⟩
    · rw [← List.append_assoc]
      exact talk.split
    · rw [talk.output]
    · cases isFinished

theorem Leaving.faulty {childOpen : Bool} (leaving : Leaving faults child childOpen) : faults := by
  cases leaving with
  | quitting faulty => exact faulty
  | gone faulty => exact faulty

theorem Resting.faulty_of_closed {childOpen : Bool} (resting : Resting faults unread child childOpen)
    (isClosed : childOpen = false) : faults := by
  cases resting with
  | idle => cases isClosed
  | leaving leaving => exact leaving.faulty

theorem Resting.closing {childOpen : Bool} (resting : Resting faults unread child childOpen) :
    faults ∨ Closing child childOpen := by
  cases resting with
  | @idle rounds enough =>
      cases rounds with
      | zero => exact absurd enough (Nat.not_lt_zero _)
      | succ rounds => exact Or.inr (.idle rounds)
  | leaving leaving => exact Or.inl leaving.faulty

/-- The parent gives up. -/
theorem Phase.failed (faulty : faults) (talk : Talk total answered pending pipes) {ending : Ending}
    (notFinished : ending ≠ .finished) : Phase faults total ⟨leave ending, child, pipes⟩ :=
  .ending (talk.told notFinished) (Or.inl faulty) talk.parentOpen

/-- The answer to the line has been printed. -/
theorem Talk.print (talk : Talk total answered [line] pipes) (replied : Replied line reply) :
    Talk total (answered ++ [(line, reply)]) [] { pipes with output := pipes.output ++ reply } where
  split := by
    rw [talk.split, List.map_append, List.append_nil]
    rfl
  each := by
    intro exchange member
    rcases List.mem_append.mp member with old | isNew
    · exact talk.each exchange old
    · rw [List.mem_singleton.mp isNew]
      exact replied
  output := by
    have last : (List.map Prod.snd [(line, reply)]).flatten = reply := List.append_nil reply
    rw [talk.output, List.map_append, List.flatten_append, last]
  parentOpen := talk.parentOpen

/-- The next line has been read. -/
theorem Talk.nextLine (talk : Talk total answered [] pipes) (isMore : pipes.input ≠ []) :
    Talk total answered [firstLine (MAXLINE - 1) pipes.input]
      { pipes with input := pipes.input.drop (firstLine (MAXLINE - 1) pipes.input).length } where
  split := by
    rw [talk.split, lines_of_more isMore, List.append_nil, List.append_assoc, List.singleton_append]
  each := talk.each
  output := talk.output
  parentOpen := talk.parentOpen

theorem Phase.left {command : ParentCall} {rest : ParentResponse command → Parent}
    {response : ParentResponse command} (phase : Phase faults total now)
    (isCall : now.left = .call command rest)
    (answered : ParentOutcomes capacity faults command now.state response after) :
    Phase faults total ⟨rest response, now.right, after⟩ := by
  cases phase with
  | @reading rounds child pipes answers talk enough resting noRequests noReplies =>
      cases rounds with
      | zero => exact absurd enough (Nat.not_lt_zero _)
      | succ rounds =>
          cases isCall
          cases answered with
          | fgets isMore =>
              have short : (firstLine (MAXLINE - 1) pipes.input).length < MAXLINE :=
                Nat.lt_of_le_of_lt (firstLine_length _ _) (by decide)
              rw [lines_of_more isMore, List.length_cons] at enough resting
              exact .sending (talk.nextLine isMore) short (Nat.lt_of_succ_lt_succ enough) resting noRequests
                noReplies
          | fgetsEnd isEnd =>
              refine .ending ⟨answers, [], ?_, talk.each, Or.inl ?_, fun _ => ⟨rfl, talk.output⟩⟩ ?_
                talk.parentOpen
              · have split := talk.split
                rw [isEnd, lines_nil, List.append_nil] at split
                exact split
              · rw [talk.output]
              · rcases resting.closing with faulty | closing
                · exact Or.inl faulty
                · exact Or.inr ⟨rfl, closing, noRequests, noReplies⟩
          | fgetsFails faulty => exact .failed faulty talk (by decide)
  | @sending rounds child pipes _ line talk short enough resting noRequests noReplies =>
      cases isCall
      cases answered with
      | writeFails faulty => exact .failed faulty talk (by decide)
      | sigpipe isClosed => exact .killed (resting.faulty_of_closed isClosed) talk
      | write =>
          dsimp only
          rw [if_pos rfl]
          refine .asked (talk.of_same rfl rfl rfl) short enough resting ?_ noReplies
          dsimp only
          rw [noRequests, List.nil_append]
  | @asked rounds child pipes _ line talk short enough resting isRequest noReplies =>
      cases isCall
      cases answered with
      | read isThere => exact absurd noReplies isThere
      | readFails faulty => exact .failed faulty talk (by decide)
      | readEnd _ isClosed => exact .failed (resting.faulty_of_closed isClosed) talk (by decide)
  | answering talk replied enough childEnough childOpen noRequests noReplies =>
      cases isCall
      cases answered with
      | read isThere => exact absurd noReplies isThere
      | readFails faulty => exact .failed faulty talk (by decide)
      | readEnd _ isClosed =>
          rw [childOpen] at isClosed
          cases isClosed
  | undefined talk noAnswer childOpen noReplies =>
      cases isCall
      cases answered with
      | read isThere => exact absurd noReplies isThere
      | readFails faulty => exact .failed faulty talk (by decide)
      | readEnd _ isClosed =>
          rw [childOpen] at isClosed
          cases isClosed
  | @answered rounds child pipes _ line reply talk replied enough resting noRequests isReply =>
      cases isCall
      cases answered with
      | readFails faulty => exact .failed faulty talk (by decide)
      | readEnd _ isClosed => exact .failed (resting.faulty_of_closed isClosed) talk (by decide)
      | read isThere =>
          have short := (answer_length replied.answered).2
          have fits : reply.length ≤ MAXLINE := Nat.le_trans short (by decide)
          rw [isReply] at isThere
          dsimp only
          rw [isReply, List.take_of_length_le fits, List.drop_eq_nil_of_le fits,
            received_of_ne _ isThere (Nat.lt_of_le_of_lt short (by decide))]
          exact .printing (talk.of_same rfl rfl rfl) replied enough resting noRequests rfl
  | @deserted rounds child pipes _ line talk leaving noReplies =>
      cases isCall
      cases answered with
      | read isThere => exact absurd noReplies isThere
      | readFails faulty => exact .failed faulty talk (by decide)
      | readEnd => exact .failed leaving.faulty talk (by decide)
  | @printing rounds child pipes _ line reply talk replied enough resting noRequests noReplies =>
      have whole : cString reply = reply := cString_eq_self (answer_noNul replied.answered)
      cases isCall
      cases answered with
      | fputs =>
          dsimp only
          rw [if_pos rfl, whole]
          exact .reading (talk.print replied) enough resting noRequests noReplies
      | fputsFails faulty printed =>
          have printedAll := talk.print replied
          refine .ending ⟨_, lines pipes.input, ?_, printedAll.each, Or.inl ?_, fun isFinished => ?_⟩
            (Or.inl faulty) talk.parentOpen
          · have split := printedAll.split
            rw [List.append_nil] at split
            exact split
          · have output : pipes.output ++ reply = _ := printedAll.output
            rw [← output, whole]
            exact List.prefix_append_right_inj pipes.output |>.mpr (List.take_prefix printed reply)
          · cases isFinished
  | killed faulty talk =>
      cases isCall
      cases answered with
      | fputs =>
          have all := talk.told_sigpipe (text "SIGPIPE caught\n").length
          rw [List.take_length] at all
          exact .ending all (Or.inl faulty) talk.parentOpen
      | fputsFails _ printed => exact .ending (talk.told_sigpipe printed) (Or.inl faulty) talk.parentOpen
  | ending told settled parentOpen =>
      cases isCall
      cases answered
      refine .ended told ?_ rfl
      rcases settled with faulty | settled
      · exact Or.inl faulty
      · exact Or.inr ⟨settled.finished, settled.closing, settled.noRequests, settled.noReplies⟩
  | ended => cases isCall

/-! ## Progress -/

/-- A line that nothing is sent for, or that has no answer. -/
def Unanswered (line : Bytes) : Prop := cString line = [] ∨ answer (cString line) = none

theorem Talk.mem (talk : Talk total answered [line] pipes) : line ∈ total := by
  rw [talk.split]
  exact List.mem_append_left _ (List.mem_append_right _ (List.mem_singleton_self line))

theorem Resting.idle_of_faultless (noFaults : ¬ faults) {childOpen : Bool}
    (resting : Resting faults unread child childOpen) :
    childOpen = true ∧ ∃ rounds, child = add2 (rounds + 1) := by
  cases resting with
  | @idle rounds enough =>
      cases rounds with
      | zero => exact absurd enough (Nat.not_lt_zero _)
      | succ rounds => exact ⟨rfl, rounds, rfl⟩
  | leaving leaving => exact absurd leaving.faulty noFaults

/-- Without faults one of the two can go on until both have come to their end, unless a line is not
answered. -/
theorem Phase.progress (noFaults : ¬ faults) (roomy : MAXLINE ≤ capacity) (phase : Phase faults total now) :
    (∃ next, Dialogue.Step (ParentOutcomes capacity faults) (ChildOutcomes capacity faults) now next) ∨
      (now.left = .done .finished ∧ now.right = .done ()) ∨ ∃ line ∈ total, Unanswered line := by
  cases phase with
  | @reading rounds child pipes _ talk enough =>
      left
      cases rounds with
      | zero => exact absurd enough (Nat.not_lt_zero _)
      | succ rounds =>
          by_cases isEnd : pipes.input = []
          · exact ⟨_, .left (.fgetsEnd isEnd)⟩
          · exact ⟨_, .left (.fgets isEnd)⟩
  | @sending _ _ _ _ line talk short enough resting noRequests =>
      left
      have shorter := cString_length_le line
      refine ⟨_, .left (.write (Or.inl (resting.idle_of_faultless noFaults).1) ?_)⟩
      rw [noRequests, List.length_nil]
      omega
  | @asked rounds child pipes _ line talk short enough resting isRequest =>
      by_cases sent : cString line = []
      · exact Or.inr (Or.inr ⟨line, talk.mem, Or.inl sent⟩)
      · left
        rcases (resting.idle_of_faultless noFaults).2 with ⟨childRounds, rfl⟩
        rw [← isRequest] at sent
        exact ⟨_, .right (.read sent)⟩
  | answering talk replied enough childEnough childOpen noRequests noReplies =>
      left
      refine ⟨_, .right (.write talk.parentOpen ?_)⟩
      have short := (answer_length replied.answered).2
      rw [noReplies, List.length_nil, Nat.zero_add]
      exact Nat.le_trans short (Nat.le_trans (by decide) roomy)
  | @undefined _ _ _ line talk noAnswer => exact Or.inr (Or.inr ⟨line, talk.mem, Or.inr noAnswer⟩)
  | answered talk replied enough resting noRequests isReply =>
      left
      have isText := (answer_length replied.answered).1
      rw [← isReply] at isText
      exact ⟨_, .left (.read (List.length_pos_iff.mp isText))⟩
  | deserted talk leaving => exact absurd leaving.faulty noFaults
  | printing => exact Or.inl ⟨_, .left (.fputs _)⟩
  | killed faulty => exact absurd faulty noFaults
  | ending => exact Or.inl ⟨_, .left (.exit _)⟩
  | @ended ending child pipes told settled parentOpen =>
      rcases settled with faulty | ⟨rfl, closing, noRequests, _⟩
      · exact absurd faulty noFaults
      · generalize pipes.childOpen = childOpen at closing
        cases closing with
        | idle rounds => exact Or.inl ⟨_, .right (.readEnd noRequests parentOpen)⟩
        | quitting => exact Or.inl ⟨_, .right (.exit _)⟩
        | gone => exact Or.inr (Or.inl ⟨rfl, rfl⟩)

/-! ## The whole conversation -/

def start (rounds childRounds : Nat) (input : Bytes) : Conversation :=
  ⟨pipe4 rounds, add2 childRounds, ⟨input, [], [], true, true, []⟩⟩

variable {rounds childRounds : Nat} {input : Bytes}

theorem Phase.reachable (enough : (lines input).length < rounds)
    (childEnough : (lines input).length < childRounds)
    (reachable : Dialogue.Reachable (ParentOutcomes capacity faults) (ChildOutcomes capacity faults)
      (start rounds childRounds input) now) : Phase faults (lines input) now := by
  induction reachable with
  | refl =>
      have talk : Talk (lines input) [] [] (start rounds childRounds input).state :=
        ⟨rfl, fun _ member => absurd member List.not_mem_nil, rfl, rfl⟩
      exact .reading talk enough (.idle childEnough) rfl rfl
  | tail _ stepped hypothesis =>
      rcases stepped.cases with ⟨command, rest, response, after, isCall, answered, rfl⟩ |
        ⟨command, rest, response, after, isCall, answered, rfl⟩
      · exact hypothesis.left isCall answered
      · exact hypothesis.right isCall answered

/-- What holds of the lines and the output. -/
structure Answers (faults : Prop) (total : List Bytes) (answered : List (Bytes × Bytes)) (now : Conversation) :
    Prop where
  front : answered.map Prod.fst <+: total
  each : ∀ exchange ∈ answered, Replied exchange.1 exchange.2
  printed : now.state.output <+: (answered.map Prod.snd).flatten ∨ faults ∧ ∃ count, now.state.output =
    (answered.map Prod.snd).flatten ++ (text "SIGPIPE caught\n").take count
  finished : now.left = .done .finished → answered.map Prod.fst = total ∧
    now.state.output = (answered.map Prod.snd).flatten

theorem Talk.answers (talk : Talk total answered pending now.state) (goesOn : now.left ≠ .done .finished) :
    Answers faults total answered now where
  front := by
    rw [talk.split, List.append_assoc]
    exact List.prefix_append _ _
  each := talk.each
  printed := Or.inl (by rw [talk.output])
  finished := fun isFinished => absurd isFinished goesOn

theorem Told.answers {ending : Ending} (told : Told total ending now.state.output)
    (settled : faults ∨ Settled ending child pipes)
    (isEnding : now.left = .done .finished → ending = .finished) :
    ∃ answered, Answers faults total answered now := by
  rcases told.printed with ⟨answered, rest, split, each, printed, finished⟩
  refine ⟨answered, ⟨rest, split.symm⟩, each, ?_, fun isFinished => ?_⟩
  · rcases printed with front | ⟨rfl, count, signal⟩
    · exact Or.inl front
    · rcases settled with faulty | settled
      · exact Or.inr ⟨faulty, count, signal⟩
      · cases settled.finished
  · rcases finished (isEnding isFinished) with ⟨rfl, output⟩
    rw [split, List.append_nil]
    exact ⟨rfl, output⟩

theorem Phase.answers (phase : Phase faults total now) : ∃ answered, Answers faults total answered now := by
  cases phase with
  | @reading rounds _ _ _ talk =>
      refine ⟨_, talk.answers fun isDone => ?_⟩
      cases rounds <;> cases isDone
  | sending talk => exact ⟨_, talk.answers (by rintro ⟨⟩)⟩
  | asked talk => exact ⟨_, talk.answers (by rintro ⟨⟩)⟩
  | answering talk => exact ⟨_, talk.answers (by rintro ⟨⟩)⟩
  | undefined talk => exact ⟨_, talk.answers (by rintro ⟨⟩)⟩
  | answered talk => exact ⟨_, talk.answers (by rintro ⟨⟩)⟩
  | deserted talk => exact ⟨_, talk.answers (by rintro ⟨⟩)⟩
  | printing talk => exact ⟨_, talk.answers (by rintro ⟨⟩)⟩
  | killed _ talk => exact ⟨_, talk.answers (by rintro ⟨⟩)⟩
  | ending told settled => exact told.answers settled (by rintro ⟨⟩)
  | ended told settled =>
      refine told.answers settled fun isDone => ?_
      cases isDone
      rfl

/-- Whatever fails, the parent prints the answers to a front of its lines in order, and to all of
them where it comes to the end of its input. Behind them there may be the message of its signal
handler. -/
theorem coprocess_answers (enough : (lines input).length < rounds)
    (childEnough : (lines input).length < childRounds)
    (reachable : Dialogue.Reachable (ParentOutcomes capacity faults) (ChildOutcomes capacity faults)
      (start rounds childRounds input) now) : ∃ answered, Answers faults (lines input) answered now :=
  (Phase.reachable enough childEnough reachable).answers

/-- Where nothing fails and nothing can happen any more, both have come to their end exactly if every
line is answered. Behind any other line they wait for ever, or the sum is undefined. -/
theorem coprocess_ends (noFaults : ¬ faults) (roomy : MAXLINE ≤ capacity)
    (enough : (lines input).length < rounds) (childEnough : (lines input).length < childRounds)
    (reachable : Dialogue.Reachable (ParentOutcomes capacity faults) (ChildOutcomes capacity faults)
      (start rounds childRounds input) now)
    (stopped : ¬ ∃ next, Dialogue.Step (ParentOutcomes capacity faults) (ChildOutcomes capacity faults)
      now next) :
    (now.left = .done .finished ∧ now.right = .done ()) ↔ ∀ line ∈ lines input, ¬ Unanswered line := by
  have phase := Phase.reachable enough childEnough reachable
  constructor
  · rintro ⟨isFinished, _⟩ line member unanswered
    rcases phase.answers with ⟨answered, answers⟩
    rw [← (answers.finished isFinished).1] at member
    rcases List.mem_map.mp member with ⟨exchange, inside, rfl⟩
    have replied := answers.each exchange inside
    rcases unanswered with isEmpty | noAnswer
    · exact replied.sent isEmpty
    · rw [replied.answered] at noAnswer
      cases noAnswer
  · intro all
    rcases phase.progress noFaults roomy with goesOn | both | ⟨line, member, unanswered⟩
    · exact absurd goesOn stopped
    · exact both
    · exact absurd unanswered (all line member)

end Steps

/-- A line without numbers has been answered. -/
def refused : Conversation :=
  ⟨.done .finished, add2 2, ⟨[], [], [], false, true, invalidArgs⟩⟩

theorem coprocess_answers_refused : ∃ answered, Answers False (lines (text "x\n")) answered refused := by
  have isLine : firstLine (MAXLINE - 1) (text "x\n") = text "x\n" := by decide
  have short : (lines (text "x\n")).length < 3 := by
    rw [lines_of_more (by decide), isLine, List.drop_length, lines_nil]
    decide
  have reachable : Dialogue.Reachable (ParentOutcomes MAXLINE False) (ChildOutcomes MAXLINE False)
      (start 3 3 (text "x\n")) refused :=
    .head (.left (.fgets (by decide))) (.head (.left (.write (Or.inl rfl) (by decide)))
      (.head (.right (.read (by decide))) (.head (.right (.write rfl (by decide)))
      (.head (.left (.read (by decide))) (.head (.left (.fputs _)) (.head (.left (.fgetsEnd rfl))
      (.head (.left (.exit _)) .refl)))))))
  exact coprocess_answers short short reachable

/-- What has become of a line that begins with a NUL byte. -/
def waiting : Conversation := ⟨receive (pipe4 2), add2 3, ⟨[], [], [], true, true, []⟩⟩

theorem coprocess_ends_waiting : (waiting.left = .done .finished ∧ waiting.right = .done ()) ↔
    ∀ line ∈ lines [0, 10], ¬ Unanswered line := by
  have isLine : firstLine (MAXLINE - 1) [0, 10] = [0, 10] := by decide
  have isLines : lines [0, 10] = [[0, 10]] := by
    rw [lines_of_more (by decide), isLine]
    exact congrArg _ lines_nil
  have short : (lines [0, 10]).length < 3 := by
    rw [isLines]
    decide
  have reachable : Dialogue.Reachable (ParentOutcomes MAXLINE False) (ChildOutcomes MAXLINE False)
      (start 3 3 [0, 10]) waiting :=
    .head (.left (.fgets (by decide))) (.head (.left (.write (Or.inl rfl) (by decide))) .refl)
  apply coprocess_ends id (Nat.le_refl _) short short reachable
  rintro ⟨next, stepped⟩
  rcases stepped.cases with ⟨command, rest, response, after, isCall, answered, _⟩ |
    ⟨command, rest, response, after, isCall, answered, _⟩
  · cases isCall
    cases answered with
    | read isThere => exact isThere rfl
    | readEnd _ isClosed => cases isClosed
    | readFails faulty => exact faulty
  · cases isCall
    cases answered with
    | read isThere => exact isThere rfl
    | readEnd _ isClosed => cases isClosed
    | readFails faulty => exact faulty

end Apue.Coprocess
