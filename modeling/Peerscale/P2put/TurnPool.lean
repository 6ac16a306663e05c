import Peerscale.Foundation.GoValue
import Peerscale.Foundation.Workers
import Peerscale.Foundation.Machine

/-! # The life cycle of a TurnPool

`Start`, `Stop`, `AddServer` and `RemoveServer`, one after the other. Each server is a worker
whose loop is `runLoop`.
-/

namespace Peerscale.P2put

/-- The servers of a pool by their addresses, and whether it has a context. `idle` says whether
`Stop` has been called after the last `Start`; `closedTwice` is the panic that ends the
process. -/
structure TurnPool where
  context : Bool
  servers : Crew GoString
  idle : Bool
  closedTwice : Bool

def newTurnPool : TurnPool where
  context := false
  servers := ∅
  idle := false
  closedTwice := false

namespace TurnPool

variable (pool : TurnPool)

def start : TurnPool :=
  { pool with context := true, servers := pool.servers.each Worker.start, idle := false }

def stop : TurnPool :=
  if pool.servers.stoppable then
    { pool with servers := pool.servers.each Worker.stop, idle := true }
  else { pool with closedTwice := true }

def addServer (addr : GoString) : TurnPool :=
  match pool.servers.lookup addr with
  | some _ => pool
  | none =>
    { pool with
      servers := pool.servers.insert addr (if pool.context then Worker.new.start else Worker.new) }

def removeServer (addr : GoString) : TurnPool :=
  match pool.servers.lookup addr with
  | none => pool
  | some server =>
    if server.stopped then { pool with closedTwice := true }
    else { pool with servers := pool.servers.erase addr }

inductive Action
  | start
  | stop
  | addServer (addr : GoString)
  | removeServer (addr : GoString)
  | loopReturns (addr : GoString)

def act (action : Action) : TurnPool :=
  if pool.closedTwice then pool
  else
    match action with
    | .start => pool.start
    | .stop => pool.stop
    | .addServer addr => pool.addServer addr
    | .removeServer addr => pool.removeServer addr
    | .loopReturns addr => { pool with servers := pool.servers.modify addr Worker.loopReturns }

def machine : Machine TurnPool Action := ⟨act⟩

variable {pool : TurnPool}

/-- No channel has been closed twice, no server has two loops, and between `Stop` and the next
`Start` only servers that have been stopped have one. -/
structure Sound (pool : TurnPool) : Prop where
  once : pool.closedTwice = false
  single : pool.servers.All fun server => server.loops ≤ 1
  idle : pool.idle → pool.servers.All fun server => 0 < server.loops → server.stopped

/-- A pool is started only when no server has a loop, and stopped only when none of its servers
has been stopped; no server that has been stopped is removed; and no server is added between
`Stop` and the next `Start`, if there has been a `Start` before. -/
def Careful (pool : TurnPool) : Action → Prop
  | .start => pool.servers.All fun server => server.loops = 0
  | .stop => pool.servers.All fun server => server.stopped = false
  | .addServer addr => pool.servers.lookup addr = none → pool.idle → pool.context = false
  | .removeServer addr => ∀ server, pool.servers.lookup addr = some server → server.stopped = false
  | .loopReturns _ => True

section

variable (sound : pool.Sound)

include sound

theorem sound_start_iff : pool.start.Sound ↔ pool.Careful .start := by
  constructor
  · intro post
    have single := post.single
    rw [start, Crew.all_each] at single
    exact single.mono fun srv one => Nat.le_zero.mp (Nat.le_of_succ_le_succ one)
  intro none
  refine ⟨sound.once, ?_, nofun⟩
  rw [start, Crew.all_each]
  exact none.mono fun srv zero => by simp [Worker.start, zero]

theorem sound_stop_iff : pool.stop.Sound ↔ pool.Careful .stop := by
  rw [stop, Careful, ← Crew.stoppable_iff]
  split
  · rename_i stoppable
    refine iff_of_true ⟨sound.once, Crew.all_each.mpr sound.single, fun _ => ?_⟩ stoppable
    rw [Crew.all_each]
    intro addr srv _ _
    rfl
  rename_i notStoppable
  refine iff_of_false ?_ notStoppable
  intro post
  cases post.once

theorem sound_addServer_iff (addr : GoString) :
    (pool.addServer addr).Sound ↔ pool.Careful (.addServer addr) := by
  rw [addServer, Careful]
  cases found : pool.servers.lookup addr with
  | some => exact iff_of_true sound nofun
  | none =>
    simp only [true_implies]
    constructor
    · intro post idle
      have all := post.idle idle
      rw [Crew.all_insert_iff found] at all
      by_contra context
      rw [Bool.not_eq_false] at context
      rw [context] at all
      exact absurd (all.1 Nat.one_pos) (by decide)
    intro unused
    refine ⟨sound.once, ?_, ?_⟩
    · rw [Crew.all_insert_iff found]
      refine ⟨?_, sound.single⟩
      split
      · exact Nat.le_refl _
      · exact Nat.zero_le _
    intro idle
    rw [Crew.all_insert_iff found]
    refine ⟨?_, sound.idle idle⟩
    rw [unused idle]
    exact nofun

theorem sound_removeServer_iff (addr : GoString) :
    (pool.removeServer addr).Sound ↔ pool.Careful (.removeServer addr) := by
  rw [removeServer, Careful]
  cases found : pool.servers.lookup addr with
  | none => exact iff_of_true sound nofun
  | some srv =>
    simp only [Option.some.injEq, forall_eq']
    split
    · rename_i stopped
      refine iff_of_false ?_ (by simp [stopped])
      intro post
      cases post.once
    rename_i isOpen
    refine iff_of_true ?_ (Bool.of_not_eq_true isOpen)
    exact ⟨sound.once, sound.single.erase addr, fun idle => (sound.idle idle).erase addr⟩

theorem Sound.loopReturns (addr : GoString) :
    { pool with servers := pool.servers.modify addr Worker.loopReturns }.Sound where
  once := sound.once
  single := sound.single.modify addr fun srv single => srv.loops_loopReturns_le.trans single
  idle idle := by
    apply (sound.idle idle).modify
    intro srv stopped running
    rw [Worker.stopped_loopReturns]
    exact stopped (Nat.lt_of_lt_of_le running srv.loops_loopReturns_le)

theorem sound_act_iff (a : Action) : (pool.act a).Sound ↔ pool.Careful a := by
  unfold act
  rw [if_neg (Bool.eq_false_iff.mp sound.once)]
  cases a with
  | start => exact sound_start_iff sound
  | stop => exact sound_stop_iff sound
  | addServer addr => exact sound_addServer_iff sound addr
  | removeServer addr => exact sound_removeServer_iff sound addr
  | loopReturns addr => exact iff_of_true (sound.loopReturns addr) trivial

end

/-- The life cycle is sound in every state of a run exactly if all calls are careful. -/
theorem turnPool_sound_iff (actions : List Action) :
    machine.Always Sound newTurnPool actions ↔ machine.Obeys Careful newTurnPool actions := by
  apply Machine.always_iff_obeys_of_step
  · intro pool action sound
    exact sound_act_iff sound action
  · exact ⟨rfl, Crew.all_empty, nofun⟩

def turnAddr : GoString := ascii "10.0.0.1:3478"

/-- A pool is started or stopped twice, a server is removed after the pool has been stopped, and
a server is added then. -/
theorem careless_unsound :
    (machine.run newTurnPool [.addServer turnAddr, .start, .start]).servers.lookup turnAddr =
        some ⟨false, 2⟩ ∧
      (machine.run newTurnPool [.addServer turnAddr, .stop, .stop]).closedTwice = true ∧
      (machine.run newTurnPool
        [.addServer turnAddr, .start, .stop, .removeServer turnAddr]).closedTwice = true ∧
      (machine.run newTurnPool [.start, .stop, .addServer turnAddr]).servers.lookup turnAddr =
        some ⟨false, 1⟩ ∧
      ¬machine.Always Sound newTurnPool [.addServer turnAddr, .stop, .stop] := by
  refine ⟨by decide +kernel, by decide +kernel, by decide +kernel, by decide +kernel, ?_⟩
  intro always
  have sound := always _ [] (List.append_nil _).symm
  exact absurd sound.once (by decide +kernel)

end TurnPool

end Peerscale.P2put
