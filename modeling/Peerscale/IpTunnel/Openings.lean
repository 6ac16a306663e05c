import Peerscale.IpTunnel.Carriers

/-! # Streams that are being opened

`detach` reads and sets the flag of a hub in one region. A writer reads it in one step and sets it
in another, and by then it may have been set.
-/

namespace Peerscale.IpTunnel

def Task.opens : Task → Option Nat
  | .write call (.opening _) => some call.hub
  | .opener hub _ => some hub
  | _ => none

namespace Heap

variable {heap : Heap} {hub other : Nat}

theorem isOpening_modifyHub (change : Hub → Hub) :
    (heap.modifyHub hub change).isOpening other =
      if hub = other then (heap.hubs[other]?.map fun state => (change state).opening).getD false
      else heap.isOpening other := by
  rw [isOpening, modifyHub, List.getElem?_modify]
  by_cases same : hub = other
  · simp [same, Function.comp_def]
  · simp [same, isOpening]

theorem isOpening_modifyHub_of_keeps (keeps : ∀ state, (change state).opening = state.opening) :
    (heap.modifyHub hub change).isOpening other = heap.isOpening other := by
  rw [isOpening_modifyHub]
  split
  · simp only [keeps]
    rfl
  · rfl

theorem isOpening_set (there : (heap.peer hub).isSome) (flag : Bool) :
    (heap.modifyHub hub fun state => { state with opening := flag }).isOpening other =
      if hub = other then flag else heap.isOpening other := by
  rw [isOpening_modifyHub]
  by_cases same : hub = other
  · rw [Heap.peer, Option.isSome_map, Option.isSome_iff_exists, same] at there
    obtain ⟨state, found⟩ := there
    rw [if_pos same, if_pos same, found]
    rfl
  · rw [if_neg same, if_neg same]

theorem isOpening_hubFor (peerID : PeerID) :
    (heap.hubFor peerID).2.isOpening hub = heap.isOpening hub := by
  rw [hubFor]
  split
  · rfl
  rw [isOpening, isOpening]
  rcases Nat.lt_trichotomy hub heap.hubs.length with within | rfl | beyond
  · rw [List.getElem?_append_left within]
  · simp
  · rw [List.getElem?_eq_none (by simp; omega), List.getElem?_eq_none (Nat.le_of_lt beyond)]

end Heap

namespace Tunnel

def openings (tun : Tunnel) (hub : Nat) : Nat :=
  tun.tasks.countP fun task => task.opens = some hub

def Flagged (tun : Tunnel) : Prop :=
  ∀ hub, tun.openings hub = (tun.heap.isOpening hub).toNat

def Claims (tun : Tunnel) : Action → Prop
  | .step index _ _ _ => ∀ call, tun.tasks[index]? = some (.write call .claim) →
      tun.heap.isOpening call.hub = false
  | _ => True

variable {tun : Tunnel} {index hub : Nat} {pre task : Task} {now : Time} {ok rev : Bool}

theorem openings_become (found : tun.tasks[index]? = some pre) (hub : Nat) :
    (tun.become index task).openings hub + (if pre.opens = some hub then 1 else 0) =
      tun.openings hub + if task.opens = some hub then 1 else 0 := by
  obtain ⟨within, isBefore⟩ := List.getElem?_eq_some_iff.mp found
  have counted : pre.opens = some hub → 0 < tun.tasks.countP fun task => task.opens = some hub := by
    intro opens
    exact List.countP_pos_iff.mpr ⟨pre, List.mem_of_getElem? found, by simpa using opens⟩
  simp only [openings, become, List.countP_set within, isBefore, decide_eq_true_eq]
  split
  · have pos := counted ‹_›
    omega
  · omega

namespace Flagged

variable (flagged : tun.Flagged)

include flagged

theorem of_heap {heap : Heap} (same : ∀ hub, heap.isOpening hub = tun.heap.isOpening hub) :
    Flagged { tun with heap := heap } :=
  fun hub => (flagged hub).trans (congrArg Bool.toNat (same hub).symm)

theorem spawn (none : task.opens = none) : (tun.spawn task).Flagged := by
  intro hub
  refine Eq.trans ?_ (flagged hub)
  simp [openings, Tunnel.spawn, none]

theorem become {heap : Heap} (found : tun.tasks[index]? = some pre)
    (follow : ∀ hub, (heap.isOpening hub).toNat + (if pre.opens = some hub then 1 else 0) =
      (tun.heap.isOpening hub).toNat + if task.opens = some hub then 1 else 0) :
    (Tunnel.become { tun with heap := heap } index task).Flagged := by
  intro hub
  have n := @openings_become { tun with heap := heap } index pre task found hub
  exact Nat.add_right_cancel (n.trans ((congrArg (· + _) (flagged hub)).trans (follow hub).symm))

theorem resume {heap : Heap} (found : tun.tasks[index]? = some pre)
    (same : ∀ hub, heap.isOpening hub = tun.heap.isOpening hub) (opens : task.opens = pre.opens) :
    (Tunnel.become { tun with heap := heap } index task).Flagged :=
  flagged.become found fun hub => by rw [same, opens]

theorem attach (dir : Direction) (now : Time) : (tun.attach hub dir now).Flagged := by
  refine (flagged.of_heap ?_).spawn rfl
  intro other
  exact Heap.isOpening_modifyHub_of_keeps fun _ => rfl

theorem isOpening_of_opens (found : tun.tasks[index]? = some pre)
    (opens : pre.opens = some hub) : tun.heap.isOpening hub := by
  have pos : 0 < tun.openings hub :=
    List.countP_pos_iff.mpr ⟨pre, List.mem_of_getElem? found, by simpa using opens⟩
  by_contra unset
  rw [flagged hub, Bool.eq_false_of_not_eq_true unset] at pos
  exact Nat.lt_irrefl 0 pos

theorem openPeerStreamSync (there : (tun.heap.peer hub).isSome)
    (found : tun.tasks[index]? = some pre) (opens : pre.opens = some hub)
    {next : Opening → Task} (goesOn : ∀ stage, (next stage).opens = some hub) {last : Task}
    (ends : last.opens = none) (stage : Opening) :
    Flagged (match tun.openPeerStreamSync hub now ok stage with
      | (post, some stage) => post.become index (next stage)
      | (post, none) => post.become index last) := by
  cases stage with
  | connect => exact flagged.resume found (fun _ => rfl) ((goesOn _).trans opens.symm)
  | attach =>
    have within := (List.getElem?_eq_some_iff.mp found).1
    refine (flagged.attach .outbound now).resume ?_ (fun _ => rfl) ((goesOn _).trans opens.symm)
    exact (List.getElem?_append_left within).trans found
  | clear =>
    have isSet := flagged.isOpening_of_opens found opens
    refine flagged.become found fun other => ?_
    rw [Heap.isOpening_set there, opens, ends]
    by_cases same : hub = other
    · simp [← same, isSet]
    · simp [same]

theorem write {call : Call} {stage : Writing} (there : (tun.heap.peer call.hub).isSome)
    (found : tun.tasks[index]? = some (.write call stage))
    (free : stage = .claim → tun.heap.isOpening call.hub = false) :
    (tun.write index call now ok rev stage).Flagged := by
  have goesOn : ∀ {heap : Heap} {task : Task}, (Task.write call stage).opens = none →
      (∀ hub, heap.isOpening hub = tun.heap.isOpening hub) → task.opens = none →
        (Tunnel.become { tun with heap := heap } index task).Flagged :=
    fun idle same none => flagged.resume found same (none.trans idle.symm)
  cases stage with
  | round =>
    rw [Tunnel.write]
    split
    · exact goesOn rfl (fun _ => rfl) rfl
    · refine goesOn rfl (fun _ => Heap.isOpening_modifyHub_of_keeps fun _ => rfl) ?_
      cases liveCarriers tun.heap call.hub rev <;> rfl
  | trying rest =>
    cases rest with
    | nil => exact goesOn rfl (fun _ => rfl) rfl
    | cons p rest =>
      rw [Tunnel.write]
      split
      · split <;> exact goesOn rfl (fun _ => rfl) rfl
      · refine goesOn rfl (fun _ => rfl) ?_
        cases rest <;> rfl
  | copying copies =>
    cases copies with
    | zero | succ => exact goesOn rfl (fun _ => rfl) rfl
  | check =>
    rw [Tunnel.write]
    refine goesOn rfl (fun _ => rfl) ?_
    split <;> rfl
  | claim =>
    refine flagged.become found fun other => ?_
    rw [Heap.isOpening_set there]
    by_cases same : call.hub = other
    · simp [Task.opens, ← same, free rfl]
    · simp [Task.opens, same]
  | opening stage =>
    rw [Tunnel.write]
    exact flagged.openPeerStreamSync there found rfl (fun _ => rfl) rfl stage

theorem detach (found : tun.tasks[index]? = some (.detach hub p)) :
    (tun.step index now ok rev (.detach hub p)).Flagged := by
  have removes : ∀ other, (tun.heap.modifyHub hub fun state =>
      { state with carriers := state.carriers.erase p }).isOpening other =
        tun.heap.isOpening other :=
    fun _ => Heap.isOpening_modifyHub_of_keeps fun _ => rfl
  rw [Tunnel.step, Heap.detach]
  by_cases mem : p ∈ tun.heap.list hub
  · by_cases isSet : tun.heap.isOpening hub
    · simp only [if_pos mem, if_pos isSet]
      exact flagged.resume found removes rfl
    simp only [if_pos mem, if_neg isSet]
    have there : (Heap.peer (tun.heap.modifyHub hub fun state =>
        { state with carriers := state.carriers.erase p }) hub).isSome := by
      rw [Heap.peer_modifyHub _ (by exact fun _ => rfl), Heap.peer, Option.isSome_map]
      by_contra missing
      rw [Heap.list, Option.not_isSome_iff_eq_none.mp missing] at mem
      cases mem
    intro other
    have n := @openings_become tun index _ (.returned none) found other
    refine (show Tunnel.openings _ other = tun.openings other + if hub = other then 1 else 0
      by simpa [openings, Tunnel.spawn, Tunnel.become, Task.opens] using n).trans ?_
    refine Eq.trans ?_ (congrArg Bool.toNat (Heap.isOpening_set there true).symm)
    rw [removes, flagged other]
    by_cases same : hub = other
    · simp [← same, isSet]
    · simp [same]
  · simp only [if_neg mem]
    exact flagged.resume found (fun _ => rfl) rfl

theorem step (grounded : tun.Grounded) (found : tun.tasks[index]? = some task)
    (free : ∀ call, task = .write call .claim → tun.heap.isOpening call.hub = false) :
    (tun.step index now ok rev task).Flagged := by
  have there : ∀ {hub}, task.hub = some hub → (tun.heap.peer hub).isSome :=
    fun holds => grounded.held _ ⟨task, List.mem_of_getElem? found, holds⟩
  cases task with
  | start peerID size =>
    rw [Tunnel.step]
    split
    · exact flagged
    · refine flagged.resume found (fun _ => Heap.isOpening_hubFor peerID) ?_
      cases size <;> rfl
  | accept =>
    have within := (List.getElem?_eq_some_iff.mp found).1
    exact (flagged.attach .inbound now).resume
      ((List.getElem?_append_left within).trans found) (fun _ => rfl) rfl
  | write call => exact flagged.write (there rfl) found fun isClaim => free call (by rw [isClaim])
  | opener hub stage =>
    exact flagged.openPeerStreamSync (there rfl) found rfl (fun _ => rfl) rfl stage
  | pump =>
    rw [Tunnel.step]
    split
    · exact flagged
    · exact flagged.resume found (fun _ => rfl) rfl
  | detach => exact flagged.detach found
  | returned => exact flagged

theorem act (grounded : tun.Grounded) (claims : tun.Claims a) : (tun.act a).Flagged := by
  cases a with
  | writeToPeer | handleStream => exact flagged.spawn rfl
  | step index now ok rev =>
    rw [Tunnel.act]
    split
    · exact flagged
    rename_i task found
    refine flagged.step grounded found ?_
    rintro call rfl
    exact claims call found
  | startSweep =>
    rw [Tunnel.act]
    split <;> exact flagged
  | reap =>
    rw [Tunnel.act, Tunnel.reap]
    split
    · exact flagged
    · exact flagged.of_heap fun _ => rfl
    · exact flagged
    · exact flagged

theorem openings_le_one (hub : Nat) : tun.openings hub ≤ 1 := by
  rw [flagged hub]
  exact Bool.toNat_le _

theorem two_of_not_claims (refused : ¬ tun.Claims a) : ∃ hub, (tun.act a).openings hub = 2 := by
  cases a with
  | step index =>
    simp only [Claims, not_forall, Bool.not_eq_false] at refused
    obtain ⟨call, found, isSet⟩ := refused
    refine ⟨call.hub, ?_⟩
    have n := @openings_become tun index _ (.write call (.opening .connect)) found call.hub
    have known := flagged call.hub
    rw [isSet] at known
    rw [Tunnel.act, found]
    simp only [Task.opens, if_true, reduceCtorEq, if_false] at n
    exact n.trans (congrArg (· + 1) known)
  | writeToPeer | handleStream | startSweep | reap => exact absurd trivial refused

end Flagged

/-- At most one stream is being opened for a hub all along exactly if every writer sets the flag
only while it is not set. -/
theorem openings_le_one_iff (actions : List Action) :
    machine.Always (fun tunnel => ∀ hub, tunnel.openings hub ≤ 1) start actions ↔
      machine.Obeys Claims start actions := by
  refine @Machine.always_iff_obeys_of_invariant Tunnel Action machine
    (fun tunnel => tunnel.Grounded ∧ tunnel.Flagged) _ _ ?_ ?_ ?_ _ ?_ actions
  · rintro tunnel action ⟨grounded, flagged⟩ claims
    exact ⟨grounded.act action, flagged.act grounded claims⟩
  · rintro tunnel ⟨-, flagged⟩
    exact flagged.openings_le_one
  · rintro tunnel action ⟨-, flagged⟩ refused single
    obtain ⟨hub, two⟩ := flagged.two_of_not_claims refused
    have least := single hub
    rw [machine_act, two] at least
    omega
  · refine ⟨grounded_start, fun hub => ?_⟩
    simp [openings, start, Heap.isOpening]

def bothOpen : List Action :=
  [.writeToPeer (ascii "bob") 1000, .writeToPeer (ascii "bob") 1000, .step 0 0 true false,
    .step 1 0 true false, .step 0 0 true false, .step 1 0 true false, .step 0 0 true false,
    .step 1 0 true false, .step 0 0 true false, .step 1 0 true false]

theorem bothOpen_two : (machine.run start bothOpen).openings 0 = 2 := by
  decide +kernel

end Tunnel

end Peerscale.IpTunnel
