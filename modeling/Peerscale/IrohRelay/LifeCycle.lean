import Peerscale.Foundation.Workers
import Peerscale.IrohRelay.Keepalive

/-! # The life cycle of an IrohRelayPool

`Start`, `Stop`, `AddRelay` and `RemoveRelay`, one after the other. Each relay is a worker whose
loop is `runLoop`. `Stop` closes the stop channels of all relays and leaves the relays in the
pool.
-/

namespace Peerscale.IrohRelay

/-- The relays of a pool by their URLs. `stopCh` says of the channel of the pool itself whether
it has been closed, if it has been made; `closedTwice` is the panic that ends the process. -/
structure IrohRelayPool where
  started : Bool
  stopCh : Option Bool
  relays : Crew GoString
  closedTwice : Bool

def newIrohRelayPool : IrohRelayPool where
  started := false
  stopCh := none
  relays := ∅
  closedTwice := false

namespace IrohRelayPool

variable (pool : IrohRelayPool)

def start (loaded : Bool) : IrohRelayPool :=
  if pool.started then pool
  else if loaded then
    { pool with started := true, stopCh := some false, relays := pool.relays.each Worker.start }
  else { pool with stopCh := some false }

def stop : IrohRelayPool :=
  if !pool.started then pool
  else if pool.stopCh = some false && pool.relays.stoppable then
    { pool with started := false, stopCh := some true, relays := pool.relays.each Worker.stop }
  else { pool with closedTwice := true }

def addRelay (url : GoString) : IrohRelayPool :=
  match pool.relays.lookup url with
  | some _ => pool
  | none =>
    { pool with
      relays := pool.relays.insert url (if pool.started then Worker.new.start else Worker.new) }

def removeRelay (url : GoString) : IrohRelayPool :=
  match pool.relays.lookup url with
  | none => pool
  | some relay =>
    if relay.stopped then { pool with closedTwice := true }
    else { pool with relays := pool.relays.erase url }

inductive Action
  | start (loaded : Bool)
  | stop
  | addRelay (url : GoString)
  | removeRelay (url : GoString)
  | loopReturns (url : GoString)

def act (action : Action) : IrohRelayPool :=
  if pool.closedTwice then pool
  else
    match action with
    | .start loaded => pool.start loaded
    | .stop => pool.stop
    | .addRelay url => pool.addRelay url
    | .removeRelay url => pool.removeRelay url
    | .loopReturns url => { pool with relays := pool.relays.modify url Worker.loopReturns }

def machine : Machine IrohRelayPool Action := ⟨act⟩

variable {pool : IrohRelayPool}

/-- No channel has been closed twice, no relay has two loops, and while the pool is started
every relay has a loop and a stop channel that is open. -/
structure Sound (pool : IrohRelayPool) : Prop where
  once : pool.closedTwice = false
  single : pool.relays.All fun relay => relay.loops ≤ 1
  running : pool.started → pool.relays.All fun relay =>
    relay.stopped = false ∧ relay.loops = 1

/-- While the pool is not started, a relay whose stop channel is open has no loop. The stop
channel of a started pool is open. -/
structure Known (pool : IrohRelayPool) : Prop where
  idle : pool.started = false → pool.relays.All fun relay => relay.stopped = false → relay.loops = 0
  stopCh : pool.started → pool.stopCh = some false

/-- No relay that has been stopped is in the pool when it is started, and none is removed. -/
def StartsFresh (pool : IrohRelayPool) : Action → Prop
  | .start true => pool.started = false → pool.relays.All fun relay => relay.stopped = false
  | .removeRelay url => ∀ relay, pool.relays.lookup url = some relay → relay.stopped = false
  | _ => True

section

variable (known : pool.Known)

include known

theorem Known.start (loaded : Bool) : (pool.start loaded).Known := by
  rw [IrohRelayPool.start]
  split
  · exact known
  rename_i notStarted
  split
  · exact ⟨nofun, fun _ => rfl⟩
  · exact ⟨known.idle, fun _ => rfl⟩

theorem Known.stop : pool.stop.Known := by
  rw [IrohRelayPool.stop]
  split
  · exact known
  split
  · refine ⟨fun _ => ?_, nofun⟩
    rw [Crew.all_each]
    intro url relay found isOpen
    cases isOpen
  · exact ⟨known.idle, known.stopCh⟩

theorem Known.addRelay (url : GoString) : (pool.addRelay url).Known := by
  rw [IrohRelayPool.addRelay]
  split
  · exact known
  rename_i absent
  refine ⟨?_, known.stopCh⟩
  intro notStarted
  rw [Crew.all_insert_iff absent]
  refine ⟨?_, known.idle notStarted⟩
  intro _
  simp only [show pool.started = false from notStarted]
  rfl

theorem Known.removeRelay (url : GoString) : (pool.removeRelay url).Known := by
  rw [IrohRelayPool.removeRelay]
  split
  · exact known
  split
  · exact ⟨known.idle, known.stopCh⟩
  · exact ⟨fun notStarted => (known.idle notStarted).erase url, known.stopCh⟩

theorem Known.act (a : Action) : (pool.act a).Known := by
  unfold IrohRelayPool.act
  split
  · exact known
  cases a with
  | start loaded => exact known.start loaded
  | stop => exact known.stop
  | addRelay url => exact known.addRelay url
  | removeRelay url => exact known.removeRelay url
  | loopReturns =>
    refine ⟨?_, known.stopCh⟩
    intro notStarted
    apply (known.idle notStarted).modify
    intro relay idle isOpen
    rw [Worker.stopped_loopReturns] at isOpen
    rw [Worker.loopReturns_of_open isOpen]
    exact idle isOpen

theorem sound_start_iff (sound : pool.Sound) (loaded : Bool) :
    (pool.start loaded).Sound ↔ pool.StartsFresh (.start loaded) := by
  rw [IrohRelayPool.start]
  cases started : pool.started with
  | true =>
    refine iff_of_true sound ?_
    cases loaded with
    | true => exact fun notStarted => by simp [started] at notStarted
    | false => trivial
  | false =>
    cases loaded with
    | false => exact iff_of_true ⟨sound.once, sound.single, by simp⟩ trivial
    | true =>
      simp only [Bool.false_eq_true, if_false, if_true, StartsFresh, started, true_implies]
      constructor
      · intro post
        have running := post.running rfl
        rw [Crew.all_each] at running
        exact running.mono fun relay both => both.1
      intro fresh
      have one : (pool.relays.each Worker.start).All fun relay =>
          relay.stopped = false ∧ relay.loops = 1 := by
        rw [Crew.all_each]
        intro url relay found
        have idle := known.idle started url relay found (fresh url relay found)
        exact ⟨fresh url relay found, by simp [Worker.start, idle]⟩
      exact ⟨sound.once, one.mono fun relay both => both.2.le, fun _ => one⟩

end

theorem Sound.stop (sound : pool.Sound) (known : pool.Known) : pool.stop.Sound := by
  rw [IrohRelayPool.stop]
  cases started : pool.started with
  | false => exact sound
  | true =>
    have running := sound.running started
    have stoppable : pool.relays.stoppable :=
      Crew.stoppable_iff.mpr (running.mono fun relay both => both.1)
    simp only [known.stopCh started, stoppable, Bool.not_true, Bool.false_eq_true, if_false,
      decide_true, Bool.and_self, if_true]
    exact ⟨sound.once, Crew.all_each.mpr sound.single, nofun⟩

theorem Sound.addRelay (sound : pool.Sound) (url : GoString) : (pool.addRelay url).Sound := by
  rw [IrohRelayPool.addRelay]
  split
  · exact sound
  rename_i absent
  refine ⟨sound.once, ?_, ?_⟩
  · rw [Crew.all_insert_iff absent]
    refine ⟨?_, sound.single⟩
    split
    · exact Nat.le_refl _
    · exact Nat.zero_le _
  intro started
  rw [Crew.all_insert_iff absent]
  refine ⟨?_, sound.running started⟩
  simp only [show pool.started from started, if_true]
  exact ⟨rfl, rfl⟩

theorem sound_removeRelay_iff (sound : pool.Sound) (url : GoString) :
    (pool.removeRelay url).Sound ↔ pool.StartsFresh (.removeRelay url) := by
  rw [IrohRelayPool.removeRelay, StartsFresh]
  cases found : pool.relays.lookup url with
  | none => exact iff_of_true sound nofun
  | some relay =>
    simp only [Option.some.injEq, forall_eq']
    split
    · rename_i stopped
      refine iff_of_false ?_ (by simp [stopped])
      intro post
      cases post.once
    rename_i isOpen
    refine iff_of_true ?_ (Bool.of_not_eq_true isOpen)
    exact ⟨sound.once, sound.single.erase url, fun started => (sound.running started).erase url⟩

theorem Sound.loopReturns (sound : pool.Sound) (url : GoString) :
    { pool with relays := pool.relays.modify url Worker.loopReturns }.Sound where
  once := sound.once
  single := sound.single.modify url fun relay single => (relay.loops_loopReturns_le).trans single
  running started := by
    apply (sound.running started).modify
    intro relay both
    rw [Worker.loopReturns_of_open both.1]
    exact both

theorem sound_act_iff (known : pool.Known) (sound : pool.Sound) (a : Action) :
    (pool.act a).Sound ↔ pool.StartsFresh a := by
  unfold act
  rw [if_neg (Bool.eq_false_iff.mp sound.once)]
  cases a with
  | start loaded => exact sound_start_iff known sound loaded
  | stop => exact iff_of_true (sound.stop known) trivial
  | addRelay url => exact iff_of_true (sound.addRelay url) trivial
  | removeRelay url => exact sound_removeRelay_iff sound url
  | loopReturns url => exact iff_of_true (sound.loopReturns url) trivial

/-- The life cycle is sound in every state of a run exactly if no relay that `Stop` has left in
the pool is there at the next `Start`, or is removed. -/
theorem lifeCycle_sound_iff (actions : List Action) :
    machine.Always Sound newIrohRelayPool actions ↔
      machine.Obeys StartsFresh newIrohRelayPool actions := by
  apply @Machine.always_iff_obeys IrohRelayPool Action machine Known Sound StartsFresh
  · exact fun pool action known => known.act action
  · exact fun pool action known sound => sound_act_iff known sound action
  · exact ⟨fun _ => Crew.all_empty, nofun⟩
  · exact ⟨rfl, Crew.all_empty, nofun⟩

def relayUrl : GoString := ascii "wss://relay"

def stopped : List Action := [.addRelay relayUrl, .start true, .stop]

/-- A relay that has been stopped is removed, or it is started again: then it has two loops, and
when one of them has returned, another one that nobody can stop. -/
theorem stopped_unsound :
    (machine.run newIrohRelayPool (stopped ++ [.removeRelay relayUrl])).closedTwice = true ∧
      (machine.run newIrohRelayPool (stopped ++ [.start true])).relays.lookup relayUrl =
        some ⟨true, 2⟩ ∧
      (machine.run newIrohRelayPool
        (stopped ++ [.loopReturns relayUrl, .start true])).relays.lookup relayUrl =
        some ⟨true, 1⟩ ∧
      (machine.run newIrohRelayPool (stopped ++ [.start true, .stop])).closedTwice = true ∧
      ¬machine.Always Sound newIrohRelayPool (stopped ++ [.removeRelay relayUrl]) := by
  refine ⟨by decide +kernel, by decide +kernel, by decide +kernel, by decide +kernel, ?_⟩
  intro always
  have sound := always _ [] (List.append_nil _).symm
  exact absurd sound.once (by decide +kernel)

end IrohRelayPool

end Peerscale.IrohRelay
