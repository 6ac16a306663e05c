import Peerscale.Foundation.Machine
import Peerscale.Foundation.Sorting
import Peerscale.IpTunnel.Hub

/-! # Goroutines of the IP tunnel

`WriteToPeer` and `handleStream` are called on any number of goroutines, each carrier has
one that reads from it, and `detach` may start one that opens a stream. A region under the
lock of a hub is one step, as is each use of a flag outside of it. The reaper holds the
lock of the registry while it sweeps, and looks at a hub and deletes it in two steps.
-/

namespace Peerscale.IpTunnel

inductive Opening
  | connect
  | attach
  | clear
  deriving DecidableEq

/-- Where a call of `write` is: before a round, with the carriers of the round that it has
still to try, with some copies of a short packet still to write, before `maybeOpenLocked`
reads the flag and before it sets it, or opening a stream. -/
inductive Writing
  | round
  | trying (rest : List Nat)
  | copying (copies accepted : Nat)
  | check
  | claim
  | opening (stage : Opening)
  deriving DecidableEq

structure Call where
  hub : Nat
  size : Nat
  retries : Nat
  deriving DecidableEq

inductive Task
  /-- `WriteToPeer` with a packet, or `handleStream`, before `hubFor` -/
  | start (peerID : PeerID) (size : Option Nat)
  /-- `handleStream` before `attach` -/
  | accept (hub : Nat)
  | write (call : Call) (stage : Writing)
  /-- `openPeerStreamSync` on a goroutine of its own -/
  | opener (hub : Nat) (stage : Opening)
  | pump (hub place : Nat)
  /-- `detach` after the carrier has been marked as dead -/
  | detach (hub place : Nat)
  /-- with how many times the packet has been written, if it has -/
  | returned (accepted : Option Nat)
  deriving DecidableEq

/-- A sweep of the reaper: the peers that it has still to look at, and the one that it is
about to delete. -/
structure Sweep where
  now : Time
  rest : List PeerID
  doomed : Option PeerID
  deriving DecidableEq

structure Tunnel where
  heap : Heap
  tasks : List Task
  sweep : Option Sweep

namespace Tunnel

def start : Tunnel where
  heap := { carriers := [], hubs := [], registry := ∅ }
  tasks := []
  sweep := none

def become (tun : Tunnel) (index : Nat) (task : Task) : Tunnel :=
  { tun with tasks := tun.tasks.set index task }

def spawn (tun : Tunnel) (task : Task) : Tunnel :=
  { tun with tasks := tun.tasks ++ [task] }

def attach (tun : Tunnel) (hub : Nat) (direction : Direction) (now : Time) : Tunnel :=
  { tun with heap := tun.heap.attach hub direction now }.spawn (.pump hub tun.heap.carriers.length)

def openPeerStreamSync (tun : Tunnel) (hub : Nat) (now : Time) (succeeds : Bool) :
    Opening → Tunnel × Option Opening
  | .connect => (tun, some (if succeeds then .attach else .clear))
  | .attach => (tun.attach hub .outbound now, some .clear)
  | .clear =>
    ({ tun with heap := tun.heap.modifyHub hub fun state => { state with opening := false } }, none)

def liveCarriers (heap : Heap) (hub : Nat) (reversed : Bool) : List Nat :=
  let live := (heap.list hub).filter fun place => heap.Live place
  if reversed then live.reverse else live

def afterTrying : List Nat → Writing
  | [] => .check
  | rest => .trying rest

def write (tun : Tunnel) (index : Nat) (call : Call) (now : Time) (succeeds reversed : Bool) :
    Writing → Tunnel
  | .round =>
    if call.retries + 1 > 48 then tun.become index (.returned none)
    else
      let heap := tun.heap.modifyHub call.hub fun state => { state with lastUse := now }
      let live := liveCarriers tun.heap call.hub reversed
      { tun with heap := heap }.become index
        (.write { call with retries := call.retries + 1 } (afterTrying live))
  | .trying [] => tun.become index (.write call .check)
  | .trying (place :: rest) =>
    if succeeds then
      if call.size < 100 ∧ rest ≠ [] then tun.become index (.write call (.copying 2 1))
      else tun.become index (.returned (some 1))
    else
      { tun with heap := tun.heap.markDead [place] }.become index (.write call (afterTrying rest))
  | .copying 0 accepted => tun.become index (.returned (some accepted))
  | .copying (copies + 1) accepted =>
    tun.become index (.write call (.copying copies (if succeeds then accepted + 1 else accepted)))
  | .check =>
    tun.become index (.write call (if tun.heap.isOpening call.hub then .round else .claim))
  | .claim =>
    { tun with heap := tun.heap.modifyHub call.hub fun state =>
      { state with opening := true } }.become index (.write call (.opening .connect))
  | .opening stage =>
    match tun.openPeerStreamSync call.hub now succeeds stage with
    | (after, some next) => after.become index (.write call (.opening next))
    | (after, none) => after.become index (.write call .round)

/-- One step of a task. What can fail does so unless it `succeeds`. -/
def step (tun : Tunnel) (index : Nat) (now : Time) (succeeds reversed : Bool) :
    Task → Tunnel
  | .start peerID size =>
    match tun.sweep with
    | some _ => tun
    | none =>
      let (hub, heap) := tun.heap.hubFor peerID
      { tun with heap := heap }.become index (match size with
        | some size => .write ⟨hub, size, 0⟩ .round
        | none => .accept hub)
  | .accept hub => (tun.attach hub .inbound now).become index (.returned none)
  | .write call stage => tun.write index call now succeeds reversed stage
  | .opener hub stage =>
    match tun.openPeerStreamSync hub now succeeds stage with
    | (after, some next) => after.become index (.opener hub next)
    | (after, none) => after.become index (.returned none)
  | .pump hub place =>
    if succeeds then tun
    else { tun with heap := tun.heap.markDead [place] }.become index (.detach hub place)
  | .detach hub place =>
    match tun.heap.detach hub place with
    | (heap, true) =>
      ({ tun with heap := heap }.become index (.returned none)).spawn (.opener hub .connect)
    | (heap, false) => { tun with heap := heap }.become index (.returned none)
  | .returned _ => tun

def reap (tun : Tunnel) : Tunnel :=
  match tun.sweep with
  | none => tun
  | some ⟨now, rest, some peerID⟩ =>
    { tun with
      heap := { tun.heap with registry := tun.heap.registry.erase peerID }
      sweep := some ⟨now, rest, none⟩ }
  | some ⟨now, peerID :: rest, none⟩ =>
    let doomed := (tun.heap.registry.lookup peerID).any fun hub => tun.heap.unused hub now
    { tun with sweep := some ⟨now, rest, if doomed then some peerID else none⟩ }
  | some ⟨_, [], none⟩ => { tun with sweep := none }

inductive Action
  | writeToPeer (peerID : PeerID) (size : Nat)
  | handleStream (peerID : PeerID)
  | step (index : Nat) (now : Time) (succeeds reversed : Bool)
  | startSweep (now : Time) (order : Shuffle PeerID)
  | reap

def act (tun : Tunnel) : Action → Tunnel
  | .writeToPeer peerID size => tun.spawn (.start peerID (some size))
  | .handleStream peerID => tun.spawn (.start peerID none)
  | .step index now succeeds reversed =>
    match tun.tasks[index]? with
    | none => tun
    | some task => tun.step index now succeeds reversed task
  | .startSweep now order =>
    match tun.sweep with
    | some _ => tun
    | none => { tun with sweep := some ⟨now, order.order tun.heap.registry.keys, none⟩ }
  | .reap => tun.reap

def machine : Machine Tunnel Action := ⟨act⟩

@[simp] theorem machine_act (tun : Tunnel) (a : Action) : machine.act tun a = tun.act a := rfl

end Tunnel

def Task.hub : Task → Option Nat
  | .accept hub => some hub
  | .write call _ => some call.hub
  | .opener hub _ => some hub
  | _ => none

def Heap.peer (heap : Heap) (hub : Nat) : Option PeerID := heap.hubs[hub]?.map Hub.peerID

structure Heap.Quiet (before after : Heap) : Prop where
  carriers : after.carriers = before.carriers
  list : ∀ hub, after.list hub = before.list hub
  peer : ∀ hub, after.peer hub = before.peer hub
  registry : after.registry = before.registry

theorem Heap.Quiet.refl (heap : Heap) : heap.Quiet heap := ⟨rfl, fun _ => rfl, fun _ => rfl, rfl⟩

theorem Heap.peer_modifyHub (heap : Heap) (peerID : ∀ state, (change state).peerID = state.peerID)
    (hub other : Nat) : (heap.modifyHub hub change).peer other = heap.peer other := by
  rw [Heap.peer, Heap.peer, Heap.modifyHub, List.getElem?_modify]
  cases heap.hubs[other]? with
  | none => rfl
  | some =>
    by_cases here : hub = other
    · simp [here, peerID]
    · simp [here]

theorem Heap.quiet_modifyHub (heap : Heap) (hub : Nat)
    (carriers : ∀ state, (change state).carriers = state.carriers)
    (peerID : ∀ state, (change state).peerID = state.peerID) :
    heap.Quiet (heap.modifyHub hub change) where
  carriers := rfl
  list other := by
    rw [Heap.list, Heap.list, Heap.modifyHub, List.getElem?_modify]
    cases heap.hubs[other]? with
    | none => rfl
    | some =>
      by_cases here : hub = other
      · simp [here, carriers]
      · simp [here]
  peer := heap.peer_modifyHub peerID hub
  registry := rfl

namespace Tunnel

def Holds (tun : Tunnel) (hub : Nat) : Prop := ∃ task ∈ tun.tasks, task.hub = some hub

variable {index : Nat} {task : Task}

theorem holds_become {tun : Tunnel} (holds : (tun.become index task).Holds hub) :
    tun.Holds hub ∨ task.hub = some hub := by
  rcases holds with ⟨one, mem, has⟩
  rcases List.mem_or_eq_of_mem_set mem with pre | rfl
  · exact .inl ⟨one, pre, has⟩
  · exact .inr has

theorem holds_spawn {tun : Tunnel} (holds : (tun.spawn task).Holds hub) :
    tun.Holds hub ∨ task.hub = some hub := by
  rcases holds with ⟨one, mem, has⟩
  rcases List.mem_append.mp mem with pre | added
  · exact .inl ⟨one, pre, has⟩
  · rw [List.mem_singleton] at added
    exact .inr (added ▸ has)

def attaching (tun : Tunnel) : Action → Option (Nat × Direction)
  | .step index _ _ _ =>
    match tun.tasks[index]? with
    | some (.accept hub) => some (hub, .inbound)
    | some (.write call (.opening .attach)) => some (call.hub, .outbound)
    | some (.opener hub .attach) => some (hub, .outbound)
    | _ => none
  | _ => none

def detaching (tun : Tunnel) : Action → Option (Nat × Nat)
  | .step index _ _ _ =>
    match tun.tasks[index]? with
    | some (.detach hub place) => some (hub, place)
    | _ => none
  | _ => none

/-- What an action can do to the heap and to the hubs that tasks have got. -/
inductive Effect (tunnel : Tunnel) (a : Action) (after : Tunnel) : Prop
  | quiet (heap : tunnel.heap.Quiet after.heap)
      (holds : ∀ hub, after.Holds hub → tunnel.Holds hub)
  | died (place : Nat) (heap : after.heap = tunnel.heap.markDead [place])
      (holds : ∀ hub, after.Holds hub → tunnel.Holds hub)
  | lookedUp (peerID : PeerID) (heap : after.heap = (tunnel.heap.hubFor peerID).2)
      (holds : ∀ hub, after.Holds hub → tunnel.Holds hub ∨ hub = (tunnel.heap.hubFor peerID).1)
  | attached (hub : Nat) (direction : Direction) (now : Time)
      (attaching : tunnel.attaching a = some (hub, direction)) (holder : tunnel.Holds hub)
      (heap : after.heap = tunnel.heap.attach hub direction now)
      (holds : ∀ other, after.Holds other → tunnel.Holds other)
  | detached (hub place : Nat) (member : place ∈ tunnel.heap.list hub)
      (heap : after.heap = (tunnel.heap.detach hub place).1)
      (holds : ∀ other, after.Holds other → tunnel.Holds other ∨ other = hub)
  | deleted (peerID : PeerID) (isReap : a = .reap)
      (doomed : (tunnel.sweep.bind Sweep.doomed) = some peerID)
      (heap : after.heap = { tunnel.heap with registry := tunnel.heap.registry.erase peerID })
      (holds : ∀ hub, after.Holds hub → tunnel.Holds hub)

variable {tun : Tunnel} {a : Action}

theorem holds_of_become {heap : Heap} (holder : tun.Holds hub)
    (same : task.hub = some hub ∨ task.hub = none) (other : Nat)
    (holds : (become { tun with heap := heap } index task).Holds other) :
    tun.Holds other := by
  rcases holds_become holds with pre | has
  · exact pre
  rcases same with same | none
  · rw [same, Option.some.injEq] at has
    exact has ▸ holder
  · rw [none] at has
    cases has

theorem holds_of_attach (holder : tun.Holds hub) (same : task.hub = some hub ∨ task.hub = none)
    (other : Nat) (holds : ((tun.attach hub dir now).become index task).Holds other) :
    tun.Holds other := by
  rcases holds_become holds with pre | has
  · rcases holds_spawn pre with pre | pump
    · exact pre
    · cases pump
  rcases same with same | none
  · rw [same, Option.some.injEq] at has
    exact has ▸ holder
  · rw [none] at has
    cases has

theorem Effect.of_quiet {heap : Heap} (quiet : tun.heap.Quiet heap) (holder : tun.Holds hub)
    (index : Nat) (same : task.hub = some hub ∨ task.hub = none) :
    Effect tun a (become { tun with heap := heap } index task) :=
  .quiet quiet (holds_of_become holder same)

theorem Effect.resume {hub : Nat} (holder : tun.Holds hub) (index : Nat)
    (same : task.hub = some hub ∨ task.hub = none) : Effect tun a (tun.become index task) :=
  .of_quiet (.refl tun.heap) holder index same

theorem effect_openPeerStreamSync (holder : tun.Holds hub)
    (attaching : stage = .attach → tun.attaching a = some (hub, .outbound)) (now : Time)
    (ok : Bool) (same : task.hub = some hub ∨ task.hub = none) :
    Effect tun a ((tun.openPeerStreamSync hub now ok stage).1.become index task) := by
  cases stage with
  | connect => exact .resume holder index same
  | attach =>
    apply Effect.attached hub .outbound now (attaching rfl) holder
    · rfl
    · exact holds_of_attach holder same
  | clear =>
    refine Effect.of_quiet ?_ holder index same
    exact tun.heap.quiet_modifyHub hub (fun _ => rfl) (fun _ => rfl)

theorem effect_write {call : Call} {stage : Writing} (holder : tun.Holds call.hub)
    (attaching : stage = .opening .attach → tun.attaching a = some (call.hub, .outbound))
    (now : Time) (ok rev : Bool) : Effect tun a (tun.write index call now ok rev stage) := by
  cases stage with
  | round =>
    rw [write]
    split
    · exact .resume holder index (.inr rfl)
    · refine Effect.of_quiet ?_ holder index (.inl rfl)
      exact tun.heap.quiet_modifyHub call.hub (fun _ => rfl) (fun _ => rfl)
  | trying rest =>
    cases rest with
    | nil => exact .resume holder index (.inl rfl)
    | cons p =>
      rw [write]
      split
      · split
        · exact .resume holder index (.inl rfl)
        · exact .resume holder index (.inr rfl)
      apply Effect.died p
      · rfl
      · exact holds_of_become holder (.inl rfl)
  | copying copies =>
    cases copies with
    | zero => exact .resume holder index (.inr rfl)
    | succ => exact .resume holder index (.inl rfl)
  | check => exact .resume holder index (.inl rfl)
  | claim =>
    refine Effect.of_quiet ?_ holder index (.inl rfl)
    exact tun.heap.quiet_modifyHub call.hub (fun _ => rfl) (fun _ => rfl)
  | opening stage =>
    have isAttach := fun same : stage = .attach => attaching (congrArg Writing.opening same)
    rw [write]
    split
    · rename_i post next stepped
      have same : post = (tun.openPeerStreamSync call.hub now ok stage).1 := by rw [stepped]
      rw [same]
      exact effect_openPeerStreamSync holder isAttach now ok (.inl rfl)
    rename_i post stepped
    have same : post = (tun.openPeerStreamSync call.hub now ok stage).1 := by rw [stepped]
    rw [same]
    exact effect_openPeerStreamSync holder isAttach now ok (.inl rfl)

theorem effect_reap : Effect tun .reap tun.reap := by
  rw [reap]
  split
  · exact .quiet (.refl _) fun _ holds => holds
  · rename_i now rest peerID sweeping
    refine Effect.deleted peerID rfl ?_ rfl fun _ holds => holds
    rw [sweeping]
    rfl
  · exact .quiet (.refl _) fun _ holds => holds
  · exact .quiet (.refl _) fun _ holds => holds

theorem effect_step (found : tun.tasks[index]? = some task) (now : Time) (ok rev : Bool) :
    Effect tun (.step index now ok rev) (tun.step index now ok rev task) := by
  have holder : ∀ hub, task.hub = some hub → tun.Holds hub :=
    fun hub has => ⟨task, List.mem_of_getElem? found, has⟩
  have unchanged : Effect tun (.step index now ok rev) tun := .quiet (.refl _) fun _ holds => holds
  cases task with
  | start peerID size =>
    rw [step]
    split
    · exact unchanged
    refine Effect.lookedUp peerID rfl ?_
    intro hub holds
    rcases holds_become holds with pre | has
    · exact .inl pre
    · cases size with
      | none | some => exact .inr (Option.some.inj has).symm
  | accept hub =>
    refine Effect.attached hub .inbound now ?_ (holder hub rfl) rfl ?_
    · rw [attaching, found]
    · exact holds_of_attach (holder hub rfl) (.inr rfl)
  | write call =>
    apply effect_write (holder call.hub rfl)
    rintro rfl
    rw [attaching, found]
  | opener hub stage =>
    have isAttach : stage = .attach →
        tun.attaching (.step index now ok rev) = some (hub, .outbound) := by
      rintro rfl
      rw [attaching, found]
    rw [step]
    split
    · rename_i post next stepped
      have same : post = (tun.openPeerStreamSync hub now ok stage).1 := by rw [stepped]
      rw [same]
      exact effect_openPeerStreamSync (holder hub rfl) isAttach now ok (.inl rfl)
    rename_i post stepped
    have same : post = (tun.openPeerStreamSync hub now ok stage).1 := by rw [stepped]
    rw [same]
    exact effect_openPeerStreamSync (holder hub rfl) isAttach now ok (.inr rfl)
  | pump hub p =>
    rw [step]
    split
    · exact unchanged
    refine Effect.died p rfl ?_
    intro other holds
    rcases holds_become holds with pre | has
    · exact pre
    · cases has
  | detach hub p =>
    by_cases mem : p ∈ tun.heap.list hub
    · rw [step]
      split
      · rename_i heap opened
        refine Effect.detached hub p mem (by rw [opened]; rfl) ?_
        intro other holds
        rcases holds_spawn holds with pre | has
        · rcases holds_become pre with pre | none
          · exact .inl pre
          · cases none
        · exact .inr (Option.some.inj has).symm
      rename_i heap removed
      refine Effect.detached hub p mem (by rw [removed]; rfl) ?_
      intro other holds
      rcases holds_become holds with pre | none
      · exact .inl pre
      · cases none
    have nothing : tun.heap.detach hub p = (tun.heap, false) := if_neg mem
    rw [step, nothing]
    refine Effect.quiet (.refl _) ?_
    intro other holds
    rcases holds_become holds with pre | none
    · exact pre
    · cases none
  | returned => exact unchanged

theorem effect_act (tun : Tunnel) (a : Action) : Effect tun a (tun.act a) := by
  have unchanged : Effect tun a tun := .quiet (.refl _) fun _ holds => holds
  have starting : ∀ peerID size, Effect tun a (tun.spawn (.start peerID size)) := by
    intro peerID size
    refine Effect.quiet (.refl _) ?_
    intro hub holds
    rcases holds_spawn holds with pre | none
    · exact pre
    · cases none
  cases a with
  | writeToPeer peerID size => exact starting peerID (some size)
  | handleStream peerID => exact starting peerID none
  | step index now ok rev =>
    rw [act]
    split
    · exact unchanged
    · rename_i task found
      exact effect_step found now ok rev
  | startSweep =>
    rw [act]
    split
    · exact unchanged
    · exact .quiet (.refl _) fun _ holds => holds
  | reap => exact effect_reap

end Tunnel

end Peerscale.IpTunnel
