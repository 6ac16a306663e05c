import Mathlib.Order.WellFounded
import Peerscale.Foundation.Machine

/-! # Fair schedules

Runs that go on for ever. Something of which every step of its own lowers a rank comes to an
end, as long as it gets its turn again and again, whatever else is done in between.
-/

namespace Peerscale.Machine

variable {State Action : Type} (m : Machine State Action)

def runFor (state : State) (schedule : Nat → Action) (time : Nat) : State :=
  m.run state ((List.range time).map schedule)

def Recurs (mine : Action → Prop) (schedule : Nat → Action) : Prop :=
  ∀ time, ∃ later ≥ time, mine (schedule later)

variable {m} {state : State} {schedule : Nat → Action}

theorem runFor_succ (time : Nat) :
    m.runFor state schedule (time + 1) = m.act (m.runFor state schedule time) (schedule time) := by
  rw [runFor, List.range_succ, List.map_append, List.map_singleton, run_concat]
  rfl

section Rank

variable {mine : Action → Prop} {running finished : State → Prop} {Rank : Type}
  {lower : Rank → Rank → Prop} {rank : State → Rank}

/-- Until it has its next turn, nothing happens to it. -/
theorem exists_turn (others : ∀ state a, running state → ¬mine a →
      running (m.act state a) ∧ rank (m.act state a) = rank state)
    (isRunning : running (m.runFor state schedule time)) (isMine : mine (schedule (time + gap))) :
    ∃ turn, mine (schedule turn) ∧ running (m.runFor state schedule turn) ∧
      rank (m.runFor state schedule turn) = rank (m.runFor state schedule time) := by
  induction gap generalizing time with
  | zero => exact ⟨time, isMine, isRunning, rfl⟩
  | succ gap ih =>
    by_cases now : mine (schedule time)
    · exact ⟨time, now, isRunning, rfl⟩
    have next := others _ (schedule time) isRunning now
    rw [← runFor_succ] at next
    rw [show time + (gap + 1) = time + 1 + gap by omega] at isMine
    obtain ⟨turn, isTurn, stillRunning, same⟩ := ih next.1 isMine
    exact ⟨turn, isTurn, stillRunning, same.trans next.2⟩

theorem eventually_of_rank (wellFounded : WellFounded lower)
    (own : ∀ state a, running state → mine a → finished (m.act state a) ∨ running (m.act state a) ∧
        lower (rank (m.act state a)) (rank state)) (others : ∀ state a, running state → ¬mine a →
      running (m.act state a) ∧ rank (m.act state a) = rank state)
    (recurs : Recurs mine schedule) (base : running state) :
    ∃ time, finished (m.runFor state schedule time) := by
  have always : ∀ val time, running (m.runFor state schedule time) →
      rank (m.runFor state schedule time) = val →
      ∃ time, finished (m.runFor state schedule time) := by
    intro val
    induction val using wellFounded.induction with
    | _ val ih =>
      intro time isRunning isRank
      obtain ⟨later, notBefore, isMine⟩ := recurs time
      obtain ⟨gap, rfl⟩ := Nat.exists_eq_add_of_le notBefore
      obtain ⟨turn, isTurn, stillRunning, same⟩ := exists_turn others isRunning isMine
      rcases own _ _ stillRunning isTurn with isFinished | ⟨goesOn, lowered⟩
      · rw [← runFor_succ] at isFinished
        exact ⟨turn + 1, isFinished⟩
      rw [same, isRank, ← runFor_succ] at lowered
      rw [← runFor_succ] at goesOn
      exact ih _ lowered (turn + 1) goesOn rfl
  exact always _ 0 base rfl

end Rank

end Peerscale.Machine
