import Apue.Foundation.Always

/-! # Loops that are cut off

A loop that may go on for ever is modelled with a bound on its rounds, and makes a
call of its own where it is cut off. With a larger bound the program is the same up
to these calls.
-/

namespace Apue.Foundation.Program

variable {Command State Result Next : Type} {Response : Command → Type}
  {stops : Command → Prop}

/-- The first program is the second one, cut off at some places. -/
inductive CutOff (stops : Command → Prop) :
    Program Command Response Result → Program Command Response Result → Prop
  | done (result : Result) : CutOff stops (.done result) (.done result)
  | stop {command : Command} (isStop : stops command)
      (next : Response command → Program Command Response Result)
      (longer : Program Command Response Result) : CutOff stops (.call command next) longer
  | call {command : Command} {next longer : Response command → Program Command Response Result}
      (rest : ∀ response, CutOff stops (next response) (longer response)) :
      CutOff stops (.call command next) (.call command longer)

namespace CutOff

variable {program longer : Program Command Response Result}

theorem refl (program : Program Command Response Result) : CutOff stops program program := by
  induction program with
  | done result => exact .done result
  | call command next hypothesis => exact .call hypothesis

theorem bind {rest further : Result → Program Command Response Next}
    (front : CutOff stops program longer) (behind : ∀ result, CutOff stops (rest result) (further result)) :
    CutOff stops (program >>= rest) (longer >>= further) := by
  induction front with
  | done result => exact behind result
  | stop isStop next longer => exact .stop isStop _ _
  | call _ hypothesis => exact .call hypothesis

/-- Only what follows a common front is cut off. -/
theorem behind {front : Program Command Response Next}
    {rest further : Next → Program Command Response Result}
    (later : ∀ result, CutOff stops (rest result) (further result)) :
    CutOff stops (front >>= rest) (front >>= further) :=
  (refl front).bind later

end CutOff

section Always

variable {step : (command : Command) → State → Response command → State → Prop}
  {allowed otherAllowed : Command → State → Prop} {post otherPost : Result → State → Prop}
  {program longer : Program Command Response Result} {state : State}

/-- What holds with a larger bound holds with a smaller one. -/
theorem Always.of_cutOff (always : Always step allowed post longer state)
    (cutOff : CutOff stops program longer)
    (here : ∀ command state, stops command → allowed command state)
    (unanswered : ∀ command state response after, stops command →
      ¬ step command state response after) : Always step allowed post program state := by
  induction cutOff generalizing state with
  | done result => exact always
  | stop isStop next longer =>
      exact ⟨here _ _ isStop, fun response after stepped =>
        absurd stepped (unanswered _ _ _ _ isStop)⟩
  | call _ hypothesis =>
      exact ⟨always.1, fun response after stepped =>
        hypothesis response (always.2 response after stepped)⟩

/-- A bound that is never reached may as well be larger. -/
theorem Always.of_uncut (always : Always step allowed post program state)
    (cutOff : CutOff stops program longer)
    (uncut : ∀ command state, allowed command state → ¬ stops command) :
    Always step allowed post longer state := by
  induction cutOff generalizing state with
  | done result => exact always
  | stop isStop next longer => exact absurd isStop (uncut _ _ always.1)
  | call _ hypothesis =>
      exact ⟨always.1, fun response after stepped =>
        hypothesis response (always.2 response after stepped)⟩

/-- What is known of a front and of the whole program carries over to what follows
the front. -/
theorem Always.exchange {front : Program Command Response Next}
    {rest : Next → Program Command Response Result} {between : Next → State → Prop}
    (first : Always step otherAllowed between front state)
    (whole : Always step allowed post (front >>= rest) state)
    (later : ∀ result after, between result after → Always step allowed post (rest result) after →
      Always step otherAllowed otherPost (rest result) after) :
    Always step otherAllowed otherPost (front >>= rest) state := by
  induction front generalizing state with
  | done result => exact later result state first whole
  | call command next hypothesis =>
      exact ⟨first.1, fun response after stepped =>
        hypothesis response (first.2 response after stepped) (whole.2 response after stepped)⟩

theorem Always.after_call {command : Command}
    {rest : Response command → Program Command Response Result} {response : Response command}
    {after : State} (whole : Always step allowed post (Program.perform command >>= rest) state)
    (stepped : step command state response after) : Always step allowed post (rest response) after :=
  whole.2 response after stepped

theorem Runs.perform_bind {command : Command}
    {rest : Response command → Program Command Response Result} {response : Response command}
    {between after : State} {result : Result} (stepped : step command state response between)
    (run : Runs step (rest response) between result after) :
    Runs step (Program.perform command >>= rest) state result after :=
  .call stepped run

/-- Where every call is answered, there is a result. -/
theorem Always.of_answered (always : Always step allowed post program state)
    (answered : ∀ command state, allowed command state → ∃ response after, step command state response after) :
    ∃ result after, post result after := by
  induction program generalizing state with
  | done result => exact ⟨result, state, always⟩
  | call command next hypothesis =>
      rcases answered command state always.1 with ⟨response, after, stepped⟩
      exact hypothesis response (always.2 response after stepped)

/-- Calls that are never made need not be allowed. -/
theorem Always.of_avoids {avoided : Command → Prop} (avoids : program.Avoids avoided)
    (here : ∀ command state, ¬ avoided command → allowed command state) (state : State) :
    Always step allowed (fun _ _ => True) program state := by
  induction program generalizing state with
  | done result => trivial
  | call command next hypothesis =>
      exact ⟨here command state avoids.1, fun response after _ =>
        hypothesis response (avoids.2 response) after⟩

end Always

end Apue.Foundation.Program
