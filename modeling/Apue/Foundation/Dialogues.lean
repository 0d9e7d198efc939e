import Apue.Foundation.Always

/-! # Two programs that talk to each other

Each of the two makes calls of its own kind, and they share a state. What one of them sees
of the state changes by its own calls only, so that what holds of every run of it alone
holds of it in the dialogue.
-/

namespace Apue.Foundation

/-- What is left of the two programs, and the state they share. -/
structure Dialogue (Left : Type) (LeftResponse : Left → Type) (LeftResult Right : Type)
    (RightResponse : Right → Type) (RightResult State : Type) where
  left : Program Left LeftResponse LeftResult
  right : Program Right RightResponse RightResult
  state : State

namespace Dialogue

variable {Left LeftResult Right RightResult State View : Type} {LeftResponse : Left → Type}
  {RightResponse : Right → Type}
  (leftStep : (command : Left) → State → LeftResponse command → State → Prop)
  (rightStep : (command : Right) → State → RightResponse command → State → Prop)

/-- One of the two makes its next call. -/
inductive Step : Dialogue Left LeftResponse LeftResult Right RightResponse RightResult State →
    Dialogue Left LeftResponse LeftResult Right RightResponse RightResult State → Prop
  | left {command : Left} {next : LeftResponse command → Program Left LeftResponse LeftResult}
      {right : Program Right RightResponse RightResult} {before after : State}
      {response : LeftResponse command} (stepped : leftStep command before response after) :
      Step ⟨.call command next, right, before⟩ ⟨next response, right, after⟩
  | right {left : Program Left LeftResponse LeftResult} {command : Right}
      {next : RightResponse command → Program Right RightResponse RightResult} {before after : State}
      {response : RightResponse command} (stepped : rightStep command before response after) :
      Step ⟨left, .call command next, before⟩ ⟨left, next response, after⟩

def Reachable : Dialogue Left LeftResponse LeftResult Right RightResponse RightResult State →
    Dialogue Left LeftResponse LeftResult Right RightResponse RightResult State → Prop :=
  Relation.ReflTransGen (Step leftStep rightStep)

variable {leftStep rightStep}
  {first last : Dialogue Left LeftResponse LeftResult Right RightResponse RightResult State}
  {view : State → View}

theorem Reachable.left_always {seen : (command : Left) → View → LeftResponse command → View → Prop}
    {allowed : Left → View → Prop} {post : LeftResult → View → Prop}
    (reachable : Reachable leftStep rightStep first last)
    (sees : ∀ command before response after, leftStep command before response after →
      seen command (view before) response (view after))
    (unseen : ∀ command before response after, rightStep command before response after →
      view after = view before)
    (always : first.left.Always seen allowed post (view first.state)) :
    last.left.Always seen allowed post (view last.state) := by
  induction reachable with
  | refl => exact always
  | tail _ stepped hypothesis =>
      cases stepped with
      | left stepped => exact hypothesis.2 _ _ (sees _ _ _ _ stepped)
      | right stepped =>
          rw [unseen _ _ _ _ stepped]
          exact hypothesis

theorem Reachable.right_always
    {seen : (command : Right) → View → RightResponse command → View → Prop}
    {allowed : Right → View → Prop} {post : RightResult → View → Prop}
    (reachable : Reachable leftStep rightStep first last)
    (sees : ∀ command before response after, rightStep command before response after →
      seen command (view before) response (view after))
    (unseen : ∀ command before response after, leftStep command before response after →
      view after = view before)
    (always : first.right.Always seen allowed post (view first.state)) :
    last.right.Always seen allowed post (view last.state) := by
  induction reachable with
  | refl => exact always
  | tail _ stepped hypothesis =>
      cases stepped with
      | left stepped =>
          rw [unseen _ _ _ _ stepped]
          exact hypothesis
      | right stepped => exact hypothesis.2 _ _ (sees _ _ _ _ stepped)

/-- What every call of the two keeps. -/
theorem Reachable.keeps {holds : State → Prop} (reachable : Reachable leftStep rightStep first last)
    (leftKeeps : ∀ command before response after, leftStep command before response after →
      holds before → holds after)
    (rightKeeps : ∀ command before response after, rightStep command before response after →
      holds before → holds after)
    (here : holds first.state) : holds last.state := by
  induction reachable with
  | refl => exact here
  | tail _ stepped hypothesis =>
      cases stepped with
      | left stepped => exact leftKeeps _ _ _ _ stepped hypothesis
      | right stepped => exact rightKeeps _ _ _ _ stepped hypothesis

theorem Step.cases (stepped : Step leftStep rightStep first last) :
    (∃ command next response after, first.left = .call command next ∧
      leftStep command first.state response after ∧ last = ⟨next response, first.right, after⟩) ∨
    ∃ command next response after, first.right = .call command next ∧
      rightStep command first.state response after ∧ last = ⟨first.left, next response, after⟩ := by
  cases stepped with
  | left stepped => exact Or.inl ⟨_, _, _, _, rfl, stepped, rfl⟩
  | right stepped => exact Or.inr ⟨_, _, _, _, rfl, stepped, rfl⟩

end Dialogue

end Apue.Foundation
