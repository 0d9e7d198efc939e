import Apue.Foundation.Always

/-! # Programs whose calls are programs

A call of one program may stand for a whole program of smaller calls. A run of the
smaller calls is then a run of the larger ones, with its own record of what was
called and what the answers were.
-/

namespace Apue.Foundation.Program

variable {Command Small State Result Next : Type} {Response : Command → Type}
  {SmallResponse : Small → Type}

/-- Every call is replaced by the program that it stands for. -/
def expand (meaning : (command : Command) → Program Small SmallResponse (Response command)) :
    Program Command Response Result → Program Small SmallResponse Result
  | .done result => .done result
  | .call command next => meaning command >>= fun response => (next response).expand meaning

/-- A run, with the calls that it made and their answers. -/
inductive Recorded
    (step : (command : Command) → State → Response command → State → Prop) :
    Program Command Response Result → State → List (Sigma Response) → Result → State → Prop
  | done (result : Result) (state : State) : Recorded step (.done result) state [] result state
  | call {command : Command} {next : Response command → Program Command Response Result}
      {before between after : State} {response : Response command} {result : Result}
      {history : List (Sigma Response)} (stepped : step command before response between)
      (rest : Recorded step (next response) between history result after) :
      Recorded step (.call command next) before (⟨command, response⟩ :: history) result after

theorem Avoids.call {avoided : Command → Prop} {command : Command}
    {rest : Response command → Program Command Response Next} (here : ¬ avoided command)
    (answered : ∀ response, (rest response).Avoids avoided) :
    (perform command >>= rest).Avoids avoided :=
  ⟨here, answered⟩

section Bind

variable {step : (command : Command) → State → Response command → State → Prop}
  {program : Program Command Response Result} {rest : Result → Program Command Response Next}
  {before after : State} {result : Next}

theorem runs_bind_iff : Runs step (program >>= rest) before result after ↔
    ∃ middle between, Runs step program before middle between ∧
      Runs step (rest middle) between result after := by
  constructor
  · intro run
    induction program generalizing before with
    | done middle => exact ⟨middle, before, .done middle before, run⟩
    | call command next hypothesis =>
        cases run with
        | call stepped later =>
            rcases hypothesis _ later with ⟨middle, between, front, behind⟩
            exact ⟨middle, between, .call stepped front, behind⟩
  · rintro ⟨middle, between, front, behind⟩
    induction front with
    | done => exact behind
    | call stepped _ hypothesis => exact .call stepped (hypothesis behind)

theorem Recorded.bind {history : List (Sigma Response)}
    (recorded : Recorded step (program >>= rest) before history result after) :
    ∃ first later middle between, history = first ++ later ∧
      Recorded step program before first middle between ∧
      Recorded step (rest middle) between later result after := by
  induction program generalizing before history with
  | done middle => exact ⟨[], history, middle, before, rfl, .done middle before, recorded⟩
  | call command next hypothesis =>
      cases recorded with
      | call stepped continued =>
          rcases hypothesis _ continued with ⟨first, later, middle, between, rfl, front, behind⟩
          exact ⟨_, later, middle, between, rfl, .call stepped front, behind⟩

/-- The results are right when every run has a right result. -/
theorem Always.of_runs {allowed : Command → State → Prop} {weaker post : Result → State → Prop}
    (always : Always step allowed weaker program before)
    (right : ∀ result after, Runs step program before result after → post result after) :
    Always step allowed post program before := by
  induction program generalizing before with
  | done value => exact right value before (.done value before)
  | call command next hypothesis =>
      refine ⟨always.1, fun response between stepped => ?_⟩
      apply hypothesis response (always.2 response between stepped)
      exact fun result after run => right result after (.call stepped run)

theorem Recorded.perform_bind {command : Command}
    {rest : Response command → Program Command Response Next} {history : List (Sigma Response)}
    (recorded : Recorded step (perform command >>= rest) before history result after) :
    ∃ response between later, history = ⟨command, response⟩ :: later ∧
      Recorded step (rest response) between later result after := by
  cases recorded with
  | call _ continued => exact ⟨_, _, _, rfl, continued⟩

/-- What is never called is not in the record. -/
theorem Recorded.avoids {avoided : Command → Prop} {program : Program Command Response Result}
    {value : Result} {history : List (Sigma Response)} (avoids : program.Avoids avoided)
    (recorded : Recorded step program before history value after) :
    ∀ event ∈ history, ¬ avoided event.1 := by
  induction recorded with
  | done => exact nofun
  | call _ _ hypothesis =>
      intro event member
      cases member with
      | head => exact avoids.1
      | tail _ later => exact hypothesis (avoids.2 _) event later

/-- What every step shows of its call and the answer. -/
theorem Recorded.each {program : Program Command Response Result} {value : Result}
    {shows : Sigma Response → Prop} {history : List (Sigma Response)}
    (steps : ∀ command before response after, step command before response after →
      shows ⟨command, response⟩)
    (recorded : Recorded step program before history value after) :
    ∀ event ∈ history, shows event := by
  induction recorded with
  | done => exact nofun
  | call stepped _ hypothesis =>
      intro event member
      cases member with
      | head => exact steps _ _ _ _ stepped
      | tail _ later => exact hypothesis event later

end Bind

/-! ## Large and small steps -/

section Steps

variable {meaning : (command : Command) → Program Small SmallResponse (Response command)}
  {step : (call : Small) → State → SmallResponse call → State → Prop}
  {program : Program Command Response Result} {before after : State} {result : Result}

theorem expand_bind (rest : Result → Program Command Response Next) :
    (program >>= rest).expand meaning =
      program.expand meaning >>= fun middle => (rest middle).expand meaning := by
  induction program with
  | done middle => rfl
  | call command next hypothesis =>
      rw [call_bind, expand, expand, bind_assoc]
      exact congrArg (meaning command >>= ·) (funext hypothesis)

theorem expand_perform (command : Command) :
    (perform command).expand meaning = meaning command := bind_done (meaning command)

/-- One call of the larger program, as the smaller calls make it. -/
def Performs (meaning : (command : Command) → Program Small SmallResponse (Response command))
    (step : (call : Small) → State → SmallResponse call → State → Prop)
    (command : Command) (before : State) (response : Response command) (after : State) : Prop :=
  (meaning command).Runs step before response after

theorem runs_expand_iff : (program.expand meaning).Runs step before result after ↔
    ∃ history, program.Recorded (Performs meaning step) before history result after := by
  induction program generalizing before with
  | done value =>
      constructor
      · intro run
        cases run
        exact ⟨[], .done _ _⟩
      · rintro ⟨history, recorded⟩
        cases recorded
        exact .done _ _
  | call command next hypothesis =>
      rw [expand, runs_bind_iff]
      constructor
      · rintro ⟨response, between, performed, continued⟩
        rcases (hypothesis response).mp continued with ⟨history, recorded⟩
        exact ⟨_, .call performed recorded⟩
      · rintro ⟨_, recorded⟩
        cases recorded with
        | call performed continued => exact ⟨_, _, performed, (hypothesis _).mpr ⟨_, continued⟩⟩

/-- What is shown of the large steps holds of the small ones, if every call makes
none but allowed calls. -/
theorem Always.expand {allowed : Command → State → Prop} {small : Small → State → Prop}
    {post : Result → State → Prop} (always : program.Always (Performs meaning step) allowed post before)
    (each : ∀ command between, allowed command between →
      (meaning command).Always step small (fun _ _ => True) between) :
    (program.expand meaning).Always step small post before := by
  induction program generalizing before with
  | done value => exact always
  | call command next hypothesis =>
      apply Always.bind
      apply (each command before always.1).of_runs
      intro response between performed
      exact hypothesis response (always.2 response between performed)

end Steps

end Apue.Foundation.Program
