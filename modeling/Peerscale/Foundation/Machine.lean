import Mathlib.Data.List.Sublists

/-! # Systems that take one action at a time

All choices of a run (who moves, what the network does, what is read from a clock) are in
the list of its actions. An action that is not possible changes nothing.
-/

namespace Peerscale

open List

structure Machine (State Action : Type) where
  act : State → Action → State

namespace Machine

variable {State Action : Type} (m : Machine State Action)

def run (state : State) (acts : List Action) : State :=
  acts.foldl m.act state

/-- Each action of a run is taken in a state that permits it. -/
def Obeys (permits : State → Action → Prop) : State → List Action → Prop
  | _, [] => True
  | state, a :: acts => permits state a ∧ Obeys permits (m.act state a) acts

instance (permits : State → Action → Prop) [∀ state a, Decidable (permits state a)]
    (state : State) (acts : List Action) : Decidable (m.Obeys permits state acts) :=
  match acts with
  | [] => inferInstanceAs (Decidable True)
  | a :: acts =>
    have := instDecidableObeys permits (m.act state a) acts
    inferInstanceAs (Decidable (_ ∧ _))

@[simp] theorem run_cons (state : State) (a : Action) (acts : List Action) :
    m.run state (a :: acts) = m.run (m.act state a) acts :=
  rfl

theorem run_append (state : State) (x y : List Action) :
    m.run state (x ++ y) = m.run (m.run state x) y :=
  foldl_append

theorem run_concat (state : State) (acts : List Action) (a : Action) :
    m.run state (acts ++ [a]) = m.act (m.run state acts) a :=
  m.run_append state acts [a]

variable {m}

theorem Obeys.append (obeys : m.Obeys permits state (x ++ y)) :
    m.Obeys permits state x ∧ m.Obeys permits (m.run state x) y := by
  induction x generalizing state with
  | nil => exact ⟨trivial, obeys⟩
  | cons a acts induction =>
    rcases obeys with ⟨may, rest⟩
    rcases induction rest with ⟨firstObeys, secondObeys⟩
    exact ⟨⟨may, firstObeys⟩, secondObeys⟩

theorem obeys_concat :
    m.Obeys permits state (acts ++ [a]) ↔
      m.Obeys permits state acts ∧ permits (m.run state acts) a := by
  induction acts generalizing state with
  | nil => exact and_comm
  | cons x acts induction => rw [cons_append, Obeys, Obeys, induction, run_cons, and_assoc]

section

variable {permits : State → Action → Prop} {holds : State → Prop} {state : State}
  {acts : List Action} (obeys : m.Obeys permits state acts) (base : holds state)
  (step : ∀ state a, holds state → permits state a → holds (m.act state a))

include obeys base step

/-- What every permitted action preserves holds at the end of the run. -/
theorem Obeys.invariant : holds (m.run state acts) := by
  induction acts generalizing state with
  | nil => exact base
  | cons a acts induction => exact induction obeys.2 (step state a base obeys.1)

/-- What permitted actions preserve makes them do what is wanted. -/
theorem Obeys.consequence {wanted : State → Action → Prop}
    (does : ∀ state a, holds state → permits state a → wanted state a) :
    m.Obeys wanted state acts := by
  induction acts generalizing state with
  | nil => trivial
  | cons a acts induction =>
    exact ⟨does state a base obeys.1, induction obeys.2 (step state a base obeys.1)⟩

end

/-- What every action preserves holds at the end of every run. -/
theorem invariant {holds : State → Prop} {state : State} (base : holds state)
    (step : ∀ state a, holds state → holds (m.act state a))
    (acts : List Action) : holds (m.run state acts) := by
  induction acts generalizing state with
  | nil => exact base
  | cons a acts induction => exact induction (step state a base)

variable (m) in
/-- What holds in every state that a run passes, the first and the last one included. -/
def Always (holds : State → Prop) (state : State) (acts : List Action) : Prop :=
  ∀ earlier later, acts = earlier ++ later → holds (m.run state earlier)

theorem obeys_of_forall (may : ∀ state a, permits state a) (state : State)
    (acts : List Action) : m.Obeys permits state acts := by
  induction acts generalizing state with
  | nil => trivial
  | cons a acts induction => exact ⟨may state a, induction _⟩

/-- If each action keeps a property exactly when it is permitted, then a run has the
property all along exactly when all of its actions are permitted. `invariant` is what is
known about the states if the actions are as `assumed`. -/
theorem Obeys.always_iff {invariant holds : State → Prop} {assumed permits : State → Action → Prop}
    (keeps : ∀ state a, invariant state → assumed state a → invariant (m.act state a))
    (step : ∀ state a, invariant state → holds state → assumed state a →
      (holds (m.act state a) ↔ permits state a))
    {state : State} {acts : List Action} (obeys : m.Obeys assumed state acts)
    (known : invariant state) (base : holds state) :
    m.Always holds state acts ↔ m.Obeys permits state acts := by
  induction acts generalizing state with
  | nil =>
    refine iff_of_true ?_ trivial
    intro prev later split
    rw [nil_eq, append_eq_nil_iff] at split
    rw [split.1]
    exact base
  | cons a acts induction =>
    have rest := fun next => induction obeys.2 (keeps state a known obeys.1) next
    have now := step state a known base obeys.1
    constructor
    · intro always
      have next : holds (m.act state a) := always [a] acts rfl
      refine ⟨now.mp next, (rest next).mp ?_⟩
      intro prev later split
      exact always (a :: prev) later (by rw [split, cons_append])
    intro may prev later split
    cases prev with
    | nil => exact base
    | cons x prev =>
      rw [cons_append, List.cons.injEq] at split
      rw [← split.1]
      exact (rest (now.mpr may.1)).mpr may.2 prev later split.2

theorem always_iff_obeys {invariant holds : State → Prop} {permits : State → Action → Prop}
    (keeps : ∀ state a, invariant state → invariant (m.act state a))
    (step : ∀ state a, invariant state → holds state → (holds (m.act state a) ↔ permits state a))
    {state : State} (known : invariant state) (base : holds state) (acts : List Action) :
    m.Always holds state acts ↔ m.Obeys permits state acts :=
  @Obeys.always_iff State Action m invariant holds (fun _ _ => True) permits
    (fun state a known _ => keeps state a known)
    (fun state a known holding _ => step state a known holding) state acts
    (obeys_of_forall (fun _ _ => trivial) state acts) known base

theorem always_iff_obeys_of_step
    (step : ∀ state a, holds state → (holds (m.act state a) ↔ permits state a))
    (base : holds state) (acts : List Action) :
    m.Always holds state acts ↔ m.Obeys permits state acts :=
  @always_iff_obeys State Action m (fun _ => True) holds permits (fun _ _ _ => trivial)
    (fun state a _ holding => step state a holding) state trivial base acts

/-- If permitted actions keep what reaches a goal, and other actions make it unreachable,
then a run can reach the goal all along exactly when all of its actions are permitted. -/
theorem always_iff_obeys_of_invariant {invariant goal : State → Prop}
    {permits : State → Action → Prop} (keeps : ∀ state a, invariant state → permits state a →
      invariant (m.act state a)) (reaches : ∀ state, invariant state → goal state)
    (spoils : ∀ state a, invariant state → ¬permits state a → ¬goal (m.act state a))
    {state : State} (base : invariant state) (acts : List Action) :
    m.Always goal state acts ↔ m.Obeys permits state acts := by
  constructor
  · intro always
    induction acts generalizing state with
    | nil => trivial
    | cons a acts induction =>
      have may : permits state a := by
        by_contra refused
        exact spoils state a base refused (always [a] acts rfl)
      refine ⟨may, induction (keeps state a base may) ?_⟩
      intro prev later split
      exact always (a :: prev) later (by rw [split, cons_append])
  · rintro obeys prev later rfl
    exact reaches _ (obeys.append.1.invariant base keeps)

end Machine

theorem concat_sublist_concat {Action : Type} {prev done : List Action} {last newest : Action} :
    (prev ++ [last]).Sublist (done ++ [newest]) ↔
      (prev ++ [last]).Sublist done ∨ last = newest ∧ prev.Sublist done := by
  rw [← reverse_sublist, reverse_append, reverse_append, reverse_singleton,
    reverse_singleton, singleton_append, singleton_append, sublist_cons_iff]
  constructor
  · rintro (within | ⟨rest, same, within⟩)
    · left
      rw [← reverse_sublist, reverse_append]
      exact within
    rw [List.cons.injEq] at same
    right
    rw [← same.2, reverse_sublist] at within
    exact ⟨same.1, within⟩
  rintro (within | ⟨rfl, within⟩)
  · left
    rw [← reverse_sublist, reverse_append] at within
    exact within
  · exact .inr ⟨_, rfl, reverse_sublist.mpr within⟩

end Peerscale
