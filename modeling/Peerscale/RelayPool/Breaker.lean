import Peerscale.RelayPool.Calls

/-! # Circuit breakers of a RelayPool

Failures demote a relay and then open its circuit; a success closes it. The health check
skips relays whose circuit is open, but takes its targets before it pings them, and does
not close the circuit of a relay that has failed in between and then answers.
-/

namespace Peerscale.RelayPool

/-- The tier and the circuit are what the number of failures in a row makes them. -/
structure RelayItem.Consistent (item : RelayItem) : Prop where
  main : item.inMain → item.consecutiveFails < demoteThreshold
  demoted : item.circuitOpen → item.inMain = false
  opened : item.circuitOpen ↔ 5 ≤ item.consecutiveFails

theorem consistent_newItem (addr : Multiaddr) (now : Time) : (newItem addr now).Consistent where
  main := nofun
  demoted := nofun
  opened := iff_of_false nofun (Nat.not_succ_le_zero 4)

theorem RelayItem.Consistent.recordResult (consistent : Consistent item) (now : Time)
    (res : ErrType) : (item.recordResult now res).Consistent := by
  cases res with
  | errOK => exact ⟨fun _ => Nat.succ_pos 2, nofun, iff_of_false nofun (Nat.not_succ_le_zero 4)⟩
  | errRateLimited => exact ⟨consistent.main, consistent.demoted, consistent.opened⟩
  | errFailed =>
    simp only [RelayItem.recordResult]
    constructor
    · dsimp only
      intro inMain
      by_cases demoted : demoteThreshold ≤ item.consecutiveFails + 1
      · simp [demoted] at inMain
      · exact Nat.lt_of_not_le demoted
    · dsimp only
      intro isOpen
      by_cases failed : 5 ≤ item.consecutiveFails + 1
      · have demoted : demoteThreshold ≤ item.consecutiveFails + 1 := by
          rw [demoteThreshold]
          omega
        cases isMain : item.inMain with
        | false => simp
        | true => simp [demoted]
      · rw [if_neg failed] at isOpen
        simp [consistent.demoted isOpen]
    dsimp only
    by_cases failed : 5 ≤ item.consecutiveFails + 1
    · simp [failed]
    · rw [if_neg failed, consistent.opened]
      omega

/-- An answer to a ping leaves an open circuit open, though there are no failures in a row
any more. -/
theorem RelayItem.consistent_pinged_iff (item : RelayItem) (rtt : Duration) :
    (item.pinged rtt).Consistent ↔ item.circuitOpen = false := by
  constructor
  · intro post
    by_contra isOpen
    rw [Bool.not_eq_false] at isOpen
    exact Nat.not_succ_le_zero 4 (post.opened.mp isOpen)
  intro closed
  refine ⟨fun _ => Nat.succ_pos 2, ?_, ?_⟩
  · intro isOpen
    exact absurd (isOpen.symm.trans closed) (by decide)
  refine iff_of_false ?_ (Nat.not_succ_le_zero 4)
  intro isOpen
  exact absurd (isOpen.symm.trans closed) (by decide)

namespace Pool

variable {pool : Pool}

def Consistent (pool : Pool) : Prop :=
  ∀ pid item, pool.find pid = some item → item.Consistent

theorem Consistent.update_iff (consistent : pool.Consistent) (pid : PeerID)
    (change : RelayItem → RelayItem) :
    (pool.update pid change).Consistent ↔
      ∀ item, pool.find pid = some item → (change item).Consistent := by
  constructor
  · intro post item found
    exact post pid (change item) (pool.find_update_self found change)
  · intro changed
    exact Each.update consistent changed

end Pool

namespace Calls

def AnswersClosed (calls : Calls) : Action → Prop
  | .ping round none _ _ =>
    ∀ pid ∈ calls.target round, ∀ item ∈ calls.pool.find pid, item.circuitOpen = false
  | _ => True

theorem consistent_act_iff {calls : Calls} (consistent : calls.pool.Consistent) (a : Action) :
    (calls.act a).pool.Consistent ↔ calls.AnswersClosed a := by
  have eff := calls.effect_act a
  generalize (calls.act a).pool = pool, (calls.act a).pending = pending at eff
  cases eff with
  | insert pid addr now =>
    exact iff_of_true (Pool.Each.insert consistent (consistent_newItem addr now)) trivial
  | record _ pid err now kind =>
    refine iff_of_true ?_ ?_
    · rw [consistent.update_iff]
      intro item found
      exact (consistent pid item found).recordResult now _
    · rcases kind with rfl | ⟨round, rtt, failure, rfl, rfl⟩ <;> trivial
  | prune clock ch => exact iff_of_true (Pool.Each.prune consistent clock ch) trivial
  | remove => exact iff_of_true (Pool.Each.erase consistent rfl) trivial
  | protect | unprotect => exact iff_of_true consistent trivial
  | pinged round pid rtt now target =>
    rw [consistent.update_iff]
    constructor
    · intro changed other isTarget item found
      obtain rfl : pid = other := Option.some.inj (target.symm.trans isTarget)
      exact (item.consistent_pinged_iff rtt).mp (changed item found)
    · intro closed item found
      exact (item.consistent_pinged_iff rtt).mpr (closed pid target item found)
  | nothing _ noPrune noAnswer =>
    refine iff_of_true consistent ?_
    cases a with
    | ping round err rtt now =>
      cases err with
      | none =>
        intro pid target
        rw [noAnswer round rtt now rfl] at target
        cases target
      | some => trivial
    | _ => trivial

/-- Tiers and circuits are always right exactly if no relay whose circuit is open answers a
ping. -/
theorem consistent_iff {start : Calls} (consistent : start.pool.Consistent)
    (actions : List Action) :
    machine.Always (fun calls => calls.pool.Consistent) start actions ↔
      machine.Obeys AnswersClosed start actions := by
  refine Machine.always_iff_obeys_of_step ?_ ?_ actions
  · intro calls action consistent
    exact consistent_act_iff consistent action
  · exact consistent

def noCalls : Calls where
  pool := newRelayPool defaultWeights
  pending := 0
  rounds := []

theorem noCalls_consistent : noCalls.pool.Consistent := by
  intro pid item found
  cases found

def answered : List Action :=
  [.add [7] [] now, .startRound (fun _ => true) (.asIs _), .ping 0 none 0 now]

theorem answered_consistent :
    machine.Always (fun calls => calls.pool.Consistent) noCalls answered := by
  refine (consistent_iff noCalls_consistent _).mpr ⟨trivial, trivial, ?_, trivial⟩
  unfold AnswersClosed
  decide +kernel

def failed (count : Nat) : List Action :=
  List.replicate count (.recordResult [7] (some ⟨false, none⟩) now)

def answeredLate : List Action :=
  [.add [7] [] now, .startRound (fun _ => true) (.asIs _)] ++ failed 5 ++ [.ping 0 none 0 now]

theorem answeredLate_inconsistent :
    ((machine.run noCalls answeredLate).pool.find [7]).map
        (fun item => (item.circuitOpen, item.consecutiveFails)) = some (true, 0) ∧
      ¬machine.Always (fun calls => calls.pool.Consistent) noCalls answeredLate := by
  have after : ((machine.run noCalls answeredLate).pool.find [7]).map
      (fun item => (item.circuitOpen, item.consecutiveFails)) = some (true, 0) := by
    decide +kernel
  refine ⟨after, ?_⟩
  intro always
  rw [Option.map_eq_some_iff] at after
  rcases after with ⟨item, found, counts⟩
  rw [Prod.mk.injEq] at counts
  have consistent := always answeredLate [] (List.append_nil _).symm [7] item found
  have fails := consistent.opened.mp counts.1
  rw [counts.2] at fails
  exact Nat.not_succ_le_zero 4 fails

end Calls

end Peerscale.RelayPool
