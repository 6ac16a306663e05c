import Peerscale.Foundation.Machine
import Peerscale.RelayPool.Prune

/-! # Concurrent calls of a RelayPool

What a call does under the lock of the pool is one action. `Add` and `RecordResult` release
the lock and take it again to prune, and a round of the health check takes its targets in
one action and enters the answers in others, so that anything may happen in between.
-/

namespace Peerscale.RelayPool

/-- A pool, how many calls have still to prune it, and the relays that the rounds of the
health check which are going on have still to ping. -/
structure Calls where
  pool : Pool
  pending : Nat
  rounds : List (List PeerID)

namespace Calls

inductive Action
  | add (pid : PeerID) (addr : Multiaddr) (now : Time)
  | recordResult (pid : PeerID) (err : Option RelayError) (now : Time)
  | prune (clock : PeerID → Time) (choice : PruneChoice)
  | remove (pid : PeerID)
  | protect (pid : PeerID)
  | unprotect (pid : PeerID)
  | startRound (connected : PeerID → Bool) (order : Shuffle PeerID)
  | ping (round : Nat) (err : Option RelayError) (rtt : Duration) (now : Time)

def recordResult (calls : Calls) (pid : PeerID) (err : Option RelayError) (now : Time) : Calls :=
  match calls.pool.find pid with
  | none => calls
  | some _ =>
    { calls with
      pool := calls.pool.update pid fun item => item.recordResult now (classifyError err)
      pending := calls.pending + 1 }

def answer (calls : Calls) (pid : PeerID) (err : Option RelayError) (rtt : Duration)
    (now : Time) : Calls :=
  match err with
  | none => { calls with pool := calls.pool.update pid fun item => item.pinged rtt }
  | some err => calls.recordResult pid (some err) now

def target (calls : Calls) (round : Nat) : Option PeerID :=
  calls.rounds[round]?.bind List.head?

def act (calls : Calls) : Action → Calls
  | .add pid addr now =>
    match calls.pool.find pid with
    | some _ => calls
    | none =>
      { calls with
        pool := calls.pool.insert pid addr now
        pending := calls.pending + 1 }
  | .recordResult pid err now => calls.recordResult pid err now
  | .prune clock choice =>
    match calls.pending with
    | 0 => calls
    | pending + 1 => { calls with pool := calls.pool.prune clock choice, pending := pending }
  | .remove pid => { calls with pool := calls.pool.remove pid }
  | .protect pid => { calls with pool := calls.pool.protect pid }
  | .unprotect pid => { calls with pool := calls.pool.unprotect pid }
  | .startRound connected order =>
    { calls with rounds := calls.rounds ++ [order.order (calls.pool.targets connected)] }
  | .ping round err rtt now =>
    match calls.target round with
    | none => calls
    | some pid =>
      { calls with rounds := calls.rounds.modify round List.tail }.answer pid err rtt now

def machine : Machine Calls Action := ⟨act⟩

end Calls

namespace Pool

variable (pool : Pool)

theorem size_remove_le (pid : PeerID) : (pool.remove pid).size ≤ pool.size := by
  rw [size, size, remove, AList.keys_erase]
  exact @List.length_erase_le _ instBEqOfDecidableEq pid _

def marks : Nat × Nat := (pool.lowWater, pool.highWater)

theorem marks_update (pid : PeerID) (change : RelayItem → RelayItem) :
    (pool.update pid change).marks = pool.marks := by
  rw [update]
  split <;> rfl

theorem marks_evict (pids : List PeerID) : (pool.evict pids).marks = pool.marks := by
  induction pids generalizing pool with
  | nil => rfl
  | cons pid pids ih => exact ih (pool.evictOne pid)

theorem marks_prune (clock : PeerID → Time) (ch : PruneChoice) :
    (pool.prune clock ch).marks = pool.marks := by
  rw [prune]
  split
  · rfl
  dsimp only
  split
  · rw [evictOldest, marks_evict, marks_evict, evictOldest, marks_evict]
  · rw [evictOldest, marks_evict]

end Pool

namespace Calls

/-- What an action can do to the pool and to the calls that have still to prune it. -/
inductive Effect (calls : Calls) : Action → Pool → Nat → Prop
  | insert (pid : PeerID) (addr : Multiaddr) (now : Time) (absent : calls.pool.find pid = none) :
      Effect calls (.add pid addr now) (calls.pool.insert pid addr now) (calls.pending + 1)
  | record (action : Action) (pid : PeerID) (err : Option RelayError) (now : Time)
      (kind : action = .recordResult pid err now ∨
        ∃ round rtt failure, err = some failure ∧ action = .ping round err rtt now) :
      Effect calls action
        (calls.pool.update pid fun item => item.recordResult now (classifyError err))
        (calls.pending + 1)
  | prune (clock : PeerID → Time) (choice : PruneChoice) (pending : Nat)
      (owed : calls.pending = pending + 1) :
      Effect calls (.prune clock choice) (calls.pool.prune clock choice) pending
  | remove (pid : PeerID) : Effect calls (.remove pid) (calls.pool.remove pid) calls.pending
  | protect (pid : PeerID) : Effect calls (.protect pid) (calls.pool.protect pid) calls.pending
  | unprotect (pid : PeerID) :
      Effect calls (.unprotect pid) (calls.pool.unprotect pid) calls.pending
  | pinged (round : Nat) (pid : PeerID) (rtt : Duration) (now : Time)
      (target : calls.target round = some pid) :
      Effect calls (.ping round none rtt now)
        (calls.pool.update pid fun item => item.pinged rtt) calls.pending
  | nothing (action : Action)
      (noPrune : ∀ clock choice, action = .prune clock choice → calls.pending = 0)
      (noAnswer : ∀ round rtt now, action = .ping round none rtt now → calls.target round = none) :
      Effect calls action calls.pool calls.pending

theorem effect_recordResult (calls : Calls) (kind : a = .recordResult pid err now ∨
      ∃ round rtt failure, err = some failure ∧ a = .ping round err rtt now)
    (rounds : List (List PeerID)) :
    Effect calls a (Calls.recordResult { calls with rounds := rounds } pid err now).pool
      (Calls.recordResult { calls with rounds := rounds } pid err now).pending := by
  rw [Calls.recordResult]
  split
  · apply Effect.nothing
    · rintro clock ch rfl
      rcases kind with same | ⟨round, rtt, failure, -, same⟩ <;> cases same
    rintro round rtt now rfl
    rcases kind with same | ⟨round, rtt, failure, failed, same⟩
    · cases same
    · cases same
      cases failed
  · exact Effect.record a pid err now kind

theorem effect_act (calls : Calls) (a : Action) :
    Effect calls a (calls.act a).pool (calls.act a).pending := by
  cases a with
  | add pid addr now =>
    simp only [act]
    split
    · exact Effect.nothing _ nofun nofun
    · rename_i absent
      exact Effect.insert pid addr now absent
  | recordResult => exact calls.effect_recordResult (.inl rfl) calls.rounds
  | prune clock ch =>
    simp only [act]
    split
    · rename_i none
      exact Effect.nothing _ (fun _ _ _ => none) nofun
    · rename_i pending owed
      exact Effect.prune clock ch pending owed
  | remove pid => exact Effect.remove pid
  | protect pid => exact Effect.protect pid
  | unprotect pid => exact Effect.unprotect pid
  | startRound => exact Effect.nothing _ nofun nofun
  | ping round err rtt now =>
    simp only [act]
    split
    · rename_i noTarget
      refine Effect.nothing _ nofun ?_
      intro other _ _ same
      cases same
      exact noTarget
    rename_i pid target
    cases err with
    | none => exact Effect.pinged round pid rtt now target
    | some failure => exact calls.effect_recordResult (.inr ⟨round, rtt, failure, rfl, rfl⟩) _

theorem marks_act (calls : Calls) (a : Action) : (calls.act a).pool.marks = calls.pool.marks := by
  have eff := calls.effect_act a
  generalize (calls.act a).pool = pool, (calls.act a).pending = pending at eff
  cases eff with
  | insert pid addr now absent => rw [Pool.insert, absent]; rfl
  | record _ pid | pinged round pid => exact calls.pool.marks_update pid _
  | prune clock ch => exact calls.pool.marks_prune clock ch
  | remove | protect | unprotect | nothing => rfl

/-- When no call is under way, the pool is not above its high water mark. -/
def WithinCapacity (calls : Calls) : Prop :=
  calls.pending = 0 → calls.pool.size ≤ calls.pool.highWater

/-- The last of the calls that are under way finds a pool that is not above its high water
mark, or no more relays of main shielded from eviction than the mark allows. -/
def LastPruneSuffices (calls : Calls) : Action → Prop
  | .prune clock _ => calls.pending = 1 →
      calls.pool.size ≤ calls.pool.highWater ∨ calls.pool.shielded clock ≤ calls.pool.highWater
  | _ => True

def Marked (calls : Calls) : Prop := calls.pool.lowWater ≤ calls.pool.highWater

theorem Marked.act (marked : Marked calls) (a : Action) : (calls.act a).Marked := by
  have same := calls.marks_act a
  rw [Pool.marks, Pool.marks, Prod.mk.injEq] at same
  rw [Marked, same.1, same.2]
  exact marked

theorem withinCapacity_act_iff (marked : Marked calls) (within : calls.WithinCapacity)
    (a : Action) : (calls.act a).WithinCapacity ↔ calls.LastPruneSuffices a := by
  have eff := calls.effect_act a
  have sameMark : (calls.act a).pool.highWater = calls.pool.highWater :=
    congrArg Prod.snd (calls.marks_act a)
  rw [WithinCapacity, sameMark]
  generalize (calls.act a).pool = pool, (calls.act a).pending = pending at eff
  cases eff with
  | insert => exact iff_of_true nofun trivial
  | record _ pid err now kind =>
    refine iff_of_true nofun ?_
    rcases kind with rfl | ⟨round, rtt, failure, -, rfl⟩ <;> trivial
  | prune clock ch owed last =>
    rw [LastPruneSuffices, last, Nat.add_eq_right, calls.pool.size_prune_le_iff clock ch marked]
  | remove pid =>
    refine iff_of_true ?_ trivial
    intro idle
    exact (calls.pool.size_remove_le pid).trans (within idle)
  | protect | unprotect => exact iff_of_true within trivial
  | pinged =>
    rw [Pool.size_update]
    exact iff_of_true within trivial
  | nothing _ noPrune =>
    refine iff_of_true within ?_
    cases a with
    | prune clock ch =>
      intro one
      rw [noPrune clock ch rfl] at one
      cases one
    | _ => trivial

/-- A pool stays within its capacity, whenever no call is under way, exactly if the last
prune of each group of concurrent calls finds few enough relays shielded. -/
theorem within_capacity_iff {start : Calls} (marked : start.Marked)
    (fits : start.pool.size ≤ start.pool.highWater) (actions : List Action) :
    machine.Always WithinCapacity start actions ↔
      machine.Obeys LastPruneSuffices start actions :=
  @Machine.always_iff_obeys Calls Action machine Marked WithinCapacity LastPruneSuffices
    (fun _ action marked => marked.act action)
    (fun _ action marked within => withinCapacity_act_iff marked within action)
    start marked (fun _ => fits) actions

def now : Time := 64000000000 * second

def activeRelays : Nat → AList fun _ : PeerID => RelayItem
  | 0 => ∅
  | count + 1 => (activeRelays count).insert [UInt8.ofNat count]
      ((newItem [] (now - minute)).recordResult now .errOK)

def fullPool : Calls where
  pool := { newRelayPool defaultWeights with items := activeRelays 50 }
  pending := 0
  rounds := []

theorem fullPool_add_within :
    machine.Always WithinCapacity fullPool [.add [200] [] now, .prune (fun _ => now) .asIs] :=
  (within_capacity_iff (show fullPool.pool.lowWater ≤ _ by decide +kernel)
    (by decide +kernel) _).mpr ⟨trivial, fun _ => .inr (by decide +kernel), trivial⟩

/-- A relay is added, is used with success before the pool is pruned, and both calls end. -/
def promotedBeforePrune : List Action :=
  [.add [200] [] now, .recordResult [200] none now, .prune (fun _ => now) .asIs,
    .prune (fun _ => now) .asIs]

theorem promotedBeforePrune_exceeds :
    fullPool.pending = 0 ∧ fullPool.pool.size = 50 ∧ fullPool.pool.highWater = 50 ∧
      (machine.run fullPool promotedBeforePrune).pending = 0 ∧
      (machine.run fullPool promotedBeforePrune).pool.size = 51 ∧
      ¬machine.Always WithinCapacity fullPool promotedBeforePrune := by
  have returned : (machine.run fullPool promotedBeforePrune).pending = 0 := by decide +kernel
  have size : (machine.run fullPool promotedBeforePrune).pool.size = 51 := by decide +kernel
  refine ⟨rfl, by decide +kernel, rfl, returned, size, ?_⟩
  intro always
  have within := always promotedBeforePrune [] (List.append_nil _).symm returned
  rw [size] at within
  exact absurd within (by decide +kernel)

end Calls

end Peerscale.RelayPool
