import Apue.Foundation.Program

/-! # What holds of every run of one program

The answers to the calls may leave a choice, so that a program has many runs.
`Always` speaks about all of them: the calls that are made are allowed where they
are made, and the results are right.
-/

namespace Apue.Foundation.Program

variable {Command State Result Next : Type} {Response : Command → Type}
  (step : (command : Command) → State → Response command → State → Prop)

/-- A run of the program alone, from its first call to its result. -/
inductive Runs : Program Command Response Result → State → Result → State → Prop
  | done (result : Result) (state : State) : Runs (.done result) state result state
  | call {command : Command} {next : Response command → Program Command Response Result}
      {before between after : State} {response : Response command} {result : Result}
      (stepped : step command before response between)
      (rest : Runs (next response) between result after) :
      Runs (.call command next) before result after

/-- Every call is allowed where it is made, and every result has `post`. -/
def Always (allowed : Command → State → Prop) (post : Result → State → Prop) :
    Program Command Response Result → State → Prop
  | .done result, state => post result state
  | .call command next, state => allowed command state ∧
      ∀ response after, step command state response after →
        Always allowed post (next response) after

variable {step} {allowed weakerAllowed : Command → State → Prop}
  {post weaker : Result → State → Prop} {program : Program Command Response Result}
  {state after : State}

theorem Always.bind {rest : Result → Program Command Response Next} {post : Next → State → Prop}
    (first : Always step allowed (fun result after => Always step allowed post (rest result) after)
      program state) : Always step allowed post (program >>= rest) state := by
  induction program generalizing state with
  | done result => exact first
  | call command next hypothesis =>
      exact ⟨first.1, fun response after stepped => hypothesis response (first.2 response after stepped)⟩

theorem Always.mono (always : Always step allowed post program state)
    (implies : ∀ result after, post result after → weaker result after) :
    Always step allowed weaker program state := by
  induction program generalizing state with
  | done result => exact implies _ _ always
  | call command next hypothesis =>
      exact ⟨always.1, fun response after stepped =>
        hypothesis response (always.2 response after stepped)⟩

theorem Always.mono_allowed (always : Always step allowed post program state)
    (implies : ∀ command state, allowed command state → weakerAllowed command state) :
    Always step weakerAllowed post program state := by
  induction program generalizing state with
  | done result => exact always
  | call command next hypothesis =>
      exact ⟨implies _ _ always.1, fun response after stepped =>
        hypothesis response (always.2 response after stepped)⟩

theorem Always.pure {result : Result} (holds : post result state) :
    Always step allowed post (pure result : Program Command Response Result) state := holds

theorem Always.perform {command : Command} {post : Response command → State → Prop}
    (here : allowed command state)
    (answered : ∀ response after, step command state response after → post response after) :
    Always step allowed post (perform command) state :=
  ⟨here, answered⟩

theorem Always.call {command : Command} {rest : Response command → Program Command Response Next}
    {post : Next → State → Prop} (here : allowed command state)
    (answered : ∀ response after, step command state response after →
      Always step allowed post (rest response) after) :
    Always step allowed post (Program.perform command >>= rest) state :=
  ⟨here, answered⟩

/-- The rest of the program behind one of the answers. -/
theorem Always.answer {command : Command} {rest : Response command → Program Command Response Next}
    {post : Next → State → Prop} {response : Response command}
    (always : Always step allowed post (Program.perform command >>= rest) state)
    (stepped : step command state response after) :
    Always step allowed post (rest response) after := always.2 response after stepped

theorem Always.result (always : Always step allowed post program state) {result : Result}
    (run : Runs step program state result after) : post result after := by
  induction run with
  | done result state => exact always
  | call stepped rest hypothesis => exact hypothesis (always.2 _ _ stepped)

/-- A program whose calls always have an answer comes to its end. -/
theorem Always.exists_run
    (answered : ∀ command state, allowed command state →
      ∃ response after, step command state response after)
    (always : Always step allowed post program state) :
    ∃ result after, Runs step program state result after ∧ post result after := by
  induction program generalizing state with
  | done result => exact ⟨result, state, .done _ _, always⟩
  | call command next hypothesis =>
      rcases answered command state always.1 with ⟨response, between, stepped⟩
      rcases hypothesis response (always.2 response between stepped) with
        ⟨result, after, run, holds⟩
      exact ⟨result, after, .call stepped run, holds⟩

/-! ## Fewer steps, and parts of a program -/

variable {fewer : (command : Command) → State → Response command → State → Prop}

theorem Runs.mono {result : Result} (run : Runs fewer program state result after)
    (implies : ∀ command state response after, fewer command state response after →
      step command state response after) : Runs step program state result after := by
  induction run with
  | done result state => exact .done result state
  | call stepped rest hypothesis => exact .call (implies _ _ _ _ stepped) hypothesis

/-- The runs among other states. -/
theorem Runs.map {Other : Type} {change : State → Other}
    {more : (command : Command) → Other → Response command → Other → Prop} {result : Result}
    (run : Runs fewer program state result after)
    (implies : ∀ command state response after, fewer command state response after →
      more command (change state) response (change after)) :
    Runs more program (change state) result (change after) := by
  induction run with
  | done result state => exact .done result (change state)
  | call stepped rest hypothesis => exact .call (implies _ _ _ _ stepped) hypothesis

theorem Always.mono_step (always : Always step allowed post program state)
    (implies : ∀ command state response after, fewer command state response after →
      step command state response after) : Always fewer allowed post program state := by
  induction program generalizing state with
  | done result => exact always
  | call command next hypothesis =>
      exact ⟨always.1, fun response after stepped =>
        hypothesis response (always.2 response after (implies _ _ _ _ stepped))⟩

theorem Always.and {otherAllowed : Command → State → Prop} {otherPost : Result → State → Prop}
    (first : Always step allowed post program state)
    (second : Always step otherAllowed otherPost program state) :
    Always step (fun command state => allowed command state ∧ otherAllowed command state)
      (fun result after => post result after ∧ otherPost result after) program state := by
  induction program generalizing state with
  | done result => exact ⟨first, second⟩
  | call command next hypothesis =>
      exact ⟨⟨first.1, second.1⟩, fun response after stepped =>
        hypothesis response (first.2 response after stepped) (second.2 response after stepped)⟩

section Parts

variable {rest : Result → Program Command Response Next} {last : Next → State → Prop}

theorem Always.front (always : Always step allowed last (program >>= rest) state) :
    Always step allowed (fun _ _ => True) program state := by
  induction program generalizing state with
  | done result => trivial
  | call command next hypothesis =>
      exact ⟨always.1, fun response after stepped =>
        hypothesis response (always.2 response after stepped)⟩

/-- What holds of the whole program holds of the rest behind a run of its front. -/
theorem Always.behind {result : Result} (always : Always step allowed last (program >>= rest) state)
    (run : Runs step program state result after) : Always step allowed last (rest result) after := by
  induction run with
  | done result state => exact always
  | call stepped _ hypothesis => exact hypothesis (always.2 _ _ stepped)

end Parts

/-! ## Loops over a list -/

section Loops

variable {Item : Type} {invariant : State → Prop}

theorem Always.foldlM {body : Result → Item → Program Command Response Result} {items : List Item}
    (each : ∀ item ∈ items, ∀ result state, invariant state →
      Always step allowed (fun _ after => invariant after) (body result item) state)
    (result : Result) (holds : invariant state) :
    Always step allowed (fun _ after => invariant after) (items.foldlM body result) state := by
  induction items generalizing result state with
  | nil => exact holds
  | cons item items hypothesis =>
      rw [List.foldlM_cons]
      apply Always.bind
      apply (each item List.mem_cons_self result state holds).mono
      intro between after kept
      exact hypothesis (fun other member => each other (List.mem_cons_of_mem _ member)) between kept

theorem Always.forM {body : Item → Program Command Response PUnit} {items : List Item}
    (each : ∀ item ∈ items, ∀ state, invariant state →
      Always step allowed (fun _ after => invariant after) (body item) state)
    (holds : invariant state) :
    Always step allowed (fun _ after => invariant after) (items.forM body) state := by
  induction items generalizing state with
  | nil => exact holds
  | cons item items hypothesis =>
      rw [List.forM_eq_forM, List.forM_cons]
      apply Always.bind
      apply (each item List.mem_cons_self state holds).mono
      intro _ after kept
      exact hypothesis (fun other member => each other (List.mem_cons_of_mem _ member)) kept

end Loops

/-! ## Interrupted runs -/

variable (step) in
/-- A run that has come as far as `last`, and may be stopped there. -/
inductive Reaches : Program Command Response Result → State → Program Command Response Result →
    State → Prop
  | here (program : Program Command Response Result) (state : State) : Reaches program state program state
  | call {command : Command} {next : Response command → Program Command Response Result}
      {last : Program Command Response Result} {before between after : State}
      {response : Response command} (stepped : step command before response between)
      (further : Reaches (next response) between last after) :
      Reaches (.call command next) before last after

theorem Always.reaches {last : Program Command Response Result}
    (always : Always step allowed post program state) (reached : Reaches step program state last after) :
    Always step allowed post last after := by
  induction reached with
  | here program state => exact always
  | call stepped further hypothesis => exact hypothesis (always.2 _ _ stepped)

/-- What holds at every call and at the end holds wherever the run is stopped. -/
theorem Always.interrupted {invariant : State → Prop} {last : Program Command Response Result}
    (always : Always step (fun _ => invariant) (fun _ => invariant) program state)
    (reached : Reaches step program state last after) : invariant after := by
  have left := always.reaches reached
  cases last with
  | done result => exact left
  | call command next => exact left.1

/-- A single call where something else is asked of the calls. -/
theorem Always.allow {command : Command} {post : Response command → State → Prop}
    (always : Always step allowed post (Program.perform command) state)
    (here : weakerAllowed command state) :
    Always step weakerAllowed post (Program.perform command) state := ⟨here, always.2⟩

end Apue.Foundation.Program
