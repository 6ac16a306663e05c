import Peerscale.IrohRelay.Regions

/-! # Streams that frames can reach

A stream that has been handed out should be found, until it is closed or reset, by way of the
manager that the pool has for its peer.
-/

namespace Peerscale.IrohRelay

namespace Endpoint

/-- Every stream that has been handed out and is neither closed nor reset can be found. -/
def Reachable (ep : Endpoint) : Prop :=
  ∀ p ∈ ep.handed, ep.registry.Over p ∨ ep.registry.Hooked p

/-- The streams that a step takes out of the manager that `pmap` has for their peer. -/
def Unhooks (reg : Registry) : StreamTask → Nat → Prop
  | .enter remote mgr sid, p => reg.pmap.lookup remote = some mgr ∧ reg.find remote sid = some p
  | .withdraw src mgr sid, p => reg.pmap.lookup src = some mgr ∧ reg.find src sid = some p
  | .remove remote sid, p => reg.find remote sid = some p
  | .peerGone key, p => ∃ sid, reg.find key sid = some p
  | _, _ => False

def handsOut (ep : Endpoint) : StreamTask → Option Nat
  | .opened p => some p
  | .offer _ _ _ p => if ep.acceptCh.length < acceptCapacity then some p else none
  | _ => none

/-- A step takes no stream out that is in use, and hands out no stream that cannot be found,
unless the stream is closed or reset. -/
def Keeps (ep : Endpoint) : Action → Prop
  | .step index _ => ∀ task, ep.tasks[index]? = some task →
      (∀ p ∈ ep.handed, Unhooks ep.registry task p → ep.registry.Over p) ∧
      ∀ p, ep.handsOut task = some p → ep.registry.Over p ∨ ep.registry.Hooked p
  | _ => True

end Endpoint

namespace Endpoint

open Registry List Option

/-- A call works with a manager of its peer and with streams that have been made. The manager
that `peerGone` is going to empty cannot be found. -/
def TaskSound (reg : Registry) : StreamTask → Prop
  | .allocate remote mgr => reg.owner mgr = some remote
  | .enter remote mgr _ => reg.owner mgr = some remote
  | .opened p => ∃ key sid, reg.Named p key sid
  | .dispatch src mgr _ _ _ => reg.owner mgr = some src
  | .offer src mgr _ p => reg.owner mgr = some src ∧ ∃ key sid, reg.Named p key sid
  | .withdraw src mgr _ => reg.owner mgr = some src
  | .clear mgr => mgr < reg.managers.length ∧
      ∀ key, reg.pmap.lookup key ≠ some mgr
  | _ => True

structure Sound (endpoint : Endpoint) : Prop where
  registry : endpoint.registry.Sound
  tasks : ∀ task ∈ endpoint.tasks, TaskSound endpoint.registry task
  handed : ∀ p ∈ endpoint.handed, ∃ key sid, endpoint.registry.Named p key sid

variable {reg : Registry}

theorem TaskSound.extends {post : Registry} {task : StreamTask} (sound : TaskSound reg task)
    (isExtended : reg.Extends post) : TaskSound post task := by
  cases task with
  | allocate r mgr | enter r mgr => exact isExtended.owner mgr r sound
  | opened p =>
    obtain ⟨key, sid, named⟩ := sound
    exact ⟨key, sid, isExtended.named p key sid named⟩
  | dispatch src mgr | withdraw src mgr => exact isExtended.owner mgr src sound
  | offer src mgr sid p =>
    obtain ⟨owner, key, id, named⟩ := sound
    exact ⟨isExtended.owner mgr src owner, key, id, isExtended.named p key id named⟩
  | clear mgr =>
    refine ⟨Nat.lt_of_lt_of_le sound.1 isExtended.managers, ?_⟩
    intro key found
    rcases isExtended.fresh key mgr found with pre | isNew
    · exact sound.2 key pre
    · exact absurd sound.1 (Nat.not_lt.mpr isNew)
  | _ => trivial

def Quiet (ep : Endpoint) (task : StreamTask) : Prop :=
  ep.handsOut task = none ∧ ∀ p, ¬Unhooks ep.registry task p

/-- The streams that could be found can still be found, but for those that the step takes out.
Only a quiet step closes or resets a stream. -/
structure Effect (endpoint : Endpoint) (task : StreamTask) (post : Endpoint)
    (next : StreamTask) : Prop where
  isExtended : endpoint.registry.Extends post.registry
  registry : post.registry.Sound
  tasks : post.tasks = endpoint.tasks
  handed : post.handed = endpoint.handed ++ (endpoint.handsOut task).toList
  find : ∀ p key sid, endpoint.registry.Named p key sid →
    (post.registry.find key sid = some p ↔ endpoint.registry.find key sid = some p ∧
      ¬Unhooks endpoint.registry task p)
  ended : ∀ p key sid, endpoint.registry.Named p key sid → post.registry.Over p →
    endpoint.registry.Over p ∨ endpoint.Quiet task
  next : TaskSound post.registry next

variable {ep : Endpoint} {task next : StreamTask} {p mgr : Nat} {sid : UInt64}

theorem Effect.of_quiet (quiet : ep.Quiet task)
    (isExtended : ep.registry.Extends reg) (sound : reg.Sound)
    (find : ∀ key sid, reg.find key sid = ep.registry.find key sid) (isNext : TaskSound reg next) :
    Effect ep task { ep with registry := reg } next where
  isExtended := isExtended
  registry := sound
  tasks := rfl
  handed := by rw [quiet.1, toList_none, append_nil]
  find p key sid _ := by
    rw [find]
    exact ⟨fun isFound => ⟨isFound, quiet.2 p⟩, fun both => both.1⟩
  ended _ _ _ _ _ := .inr quiet
  next := isNext

theorem Effect.idle (sound : ep.Sound) (quiet : ep.Quiet task)
    (isNext : TaskSound ep.registry next) : Effect ep task ep next :=
  .of_quiet quiet (.refl _) sound.registry (fun _ _ => rfl) isNext

theorem Effect.of_modify (sound : ep.Sound) (quiet : ep.Quiet task) (ends : Ends change)
    (p : Nat) (isNext : TaskSound (ep.registry.modify p change) next) :
    Effect ep task { ep with registry := ep.registry.modify p change } next :=
  .of_quiet quiet (extends_modify ends _ p) (sound.registry.modify ends p) (fun _ _ => rfl) isNext

theorem Effect.of_handed {acceptCh : List Nat} (sound : ep.Sound)
    (hands : ep.handsOut task = some p)
    (keeps : ∀ other, ¬Unhooks ep.registry task other) :
    Effect ep task { ep with acceptCh := acceptCh, handed := ep.handed ++ [p] } .returned where
  isExtended := .refl _
  registry := sound.registry
  tasks := rfl
  handed := by rw [hands, toList_some]
  find other _ _ _ := ⟨fun isFound => ⟨isFound, keeps other⟩, fun both => both.1⟩
  ended _ _ _ _ isOver := .inl isOver
  next := trivial

theorem Effect.of_unhooks (hands : ep.handsOut task = none)
    (isExtended : ep.registry.Extends reg) (sound : reg.Sound)
    (find : ∀ p key sid, ep.registry.Named p key sid →
      (reg.find key sid = some p ↔ ep.registry.find key sid = some p ∧ ¬Unhooks ep.registry task p))
    (ended : ∀ p key sid, ep.registry.Named p key sid → reg.Over p →
      ep.registry.Over p) (isNext : TaskSound reg next) :
    Effect ep task { ep with registry := reg } next where
  isExtended := isExtended
  registry := sound
  tasks := rfl
  handed := by rw [hands, toList_none, append_nil]
  find := find
  ended p key sid named isOver := .inl (ended p key sid named isOver)
  next := isNext

theorem effect_getManager (sound : ep.Sound) (quiet : ep.Quiet task)
    (r : PublicKey) (isNext : TaskSound (ep.registry.getManager r).2 next) :
    Effect ep task { ep with registry := (ep.registry.getManager r).2 } next :=
  .of_quiet quiet (extends_getManager _ r) (sound.registry.getManager r) (find_getManager r) isNext

theorem effect_dispatch (sound : ep.Sound)
    (isSound : TaskSound ep.registry (.dispatch src mgr sid flags data)) (ch : Nat) :
    Effect ep (.dispatch src mgr sid flags data)
      (ep.advance ch (.dispatch src mgr sid flags data)).1
      (ep.advance ch (.dispatch src mgr sid flags data)).2 := by
  have quiet : ep.Quiet (.dispatch src mgr sid flags data) := ⟨rfl, fun _ => id⟩
  rw [advance]
  split
  · rename_i absent
    split
    · exact .idle sound quiet trivial
    apply Effect.of_unhooks rfl (extends_enter _ mgr src sid) (sound.registry.enter isSound sid)
    · intro p key id named
      rw [find_enter_iff sound.registry isSound named]
      refine and_congr Iff.rfl (not_congr (iff_of_false ?_ fun unhooked => unhooked))
      rintro ⟨current, isFound⟩
      rw [Registry.find, current, bind_some, absent] at isFound
      cases isFound
    · intro p key id named isOver
      exact over_of_addStream named isOver
    · have owner := (extends_enter _ mgr src sid).owner mgr src isSound
      exact ⟨owner, src, sid, named_enter mgr src sid⟩
  · exact .idle sound quiet trivial

theorem effect_peerGone (sound : ep.Sound) (key : PublicKey) (ch : Nat) :
    Effect ep (.peerGone key) (ep.advance ch (.peerGone key)).1
      (ep.advance ch (.peerGone key)).2 := by
  rw [advance]
  split
  · rename_i absent
    refine .idle sound ⟨rfl, ?_⟩ trivial
    rintro p ⟨sid, isFound⟩
    rw [Registry.find, absent, bind_none] at isFound
    cases isFound
  rename_i mgr current
  apply Effect.of_unhooks rfl (extends_detach _ key) (sound.registry.detach key)
  · intro p other sid named
    exact find_detach_iff sound.registry named key
  · intro p other sid named isOver
    exact isOver
  have owner := sound.registry.owned key mgr current
  refine ⟨lt_of_owner owner, ?_⟩
  intro other found
  obtain ⟨apart, pre⟩ := lookup_detach_eq_some found
  have isKey := some.inj ((sound.registry.owned other mgr pre).symm.trans owner)
  exact apart isKey

theorem effect_advance (sound : ep.Sound) (isSound : TaskSound ep.registry task) (ch : Nat) :
    Effect ep task (ep.advance ch task).1 (ep.advance ch task).2 := by
  cases task with
  | openStream r =>
    exact effect_getManager sound ⟨rfl, fun _ => id⟩ r (owner_getManager sound.registry r)
  | allocate r mgr =>
    exact .of_quiet ⟨rfl, fun _ => id⟩ (extends_allocID _ mgr) (sound.registry.allocID mgr)
      (find_allocID mgr) ((extends_allocID _ mgr).owner mgr r isSound)
  | enter r mgr sid =>
    apply Effect.of_unhooks rfl (extends_enter _ mgr r sid) (sound.registry.enter isSound sid)
    · intro p key id named
      exact find_enter_iff sound.registry isSound named sid
    · intro p key id named isOver
      exact over_of_addStream named isOver
    · exact ⟨r, sid, named_enter mgr r sid⟩
  | opened => exact .of_handed sound rfl fun _ => id
  | frame src =>
    exact effect_getManager sound ⟨rfl, fun _ => id⟩ src (owner_getManager sound.registry src)
  | dispatch => exact effect_dispatch sound isSound ch
  | offer src mgr sid p =>
    rw [advance]
    split
    · rename_i room
      exact .of_handed sound (if_pos room) fun _ => id
    · rename_i full
      exact .idle sound ⟨if_neg full, fun _ => id⟩ isSound.1
  | withdraw src mgr sid =>
    apply Effect.of_unhooks rfl (extends_modifyManager _ mgr _) (sound.registry.forget mgr sid)
    · intro p key id named
      exact find_forget_iff sound.registry isSound named sid
    · intro p key id named isOver
      exact isOver
    · trivial
  | deliver p flags data =>
    exact .of_modify sound ⟨rfl, fun _ => id⟩ (ends_dispatch flags data) p trivial
  | peerGone key => exact effect_peerGone sound key ch
  | clear mgr =>
    exact .of_quiet ⟨rfl, fun _ => id⟩ (extends_modifyManager _ mgr _) (sound.registry.clear mgr)
      (fun key sid => find_modifyManager_of_ne (isSound.2 key) sid) trivial
  | resetAll =>
    rw [advance]
    split
    · refine .idle sound ⟨rfl, fun _ => id⟩ ?_
      split <;> trivial
    · exact .of_modify sound ⟨rfl, fun _ => id⟩ (ends_dispatch flagRESET []) _ trivial
  | close p =>
    rw [advance]
    split
    · exact .idle sound ⟨rfl, fun _ => id⟩ trivial
    split
    · exact .idle sound ⟨rfl, fun _ => id⟩ trivial
    · exact .of_modify sound ⟨rfl, fun _ => id⟩ (fun _ _ => .inl rfl) p trivial
  | reset p =>
    rw [advance]
    split
    · exact .idle sound ⟨rfl, fun _ => id⟩ trivial
    · exact .of_modify sound ⟨rfl, fun _ => id⟩ (fun _ _ => .inr rfl) p trivial
  | remove r sid =>
    apply Effect.of_unhooks rfl (extends_removeStream _ r sid) (sound.registry.removeStream r sid)
    · intro p key id named
      exact find_removeStream_iff sound.registry named r sid
    · intro p key id named isOver
      rw [Over, streams_removeStream] at isOver
      exact isOver
    · trivial
  | returned => exact .idle sound ⟨rfl, fun _ => id⟩ trivial

theorem named_of_handsOut (isSound : TaskSound ep.registry task)
    (hands : ep.handsOut task = some p) : ∃ key sid, ep.registry.Named p key sid := by
  cases task with
  | opened =>
    rw [← some.inj hands]
    exact isSound
  | offer =>
    rw [handsOut] at hands
    split at hands
    · rw [← some.inj hands]
      exact isSound.2
    · cases hands
  | _ => cases hands

theorem Sound.spawn (sound : ep.Sound) (isSound : TaskSound ep.registry task) :
    (ep.spawn task).Sound where
  registry := sound.registry
  tasks other mem := by
    rcases mem_append.mp mem with pre | added
    · exact sound.tasks other pre
    · rw [mem_singleton.mp added]
      exact isSound
  handed := sound.handed

theorem Sound.act (sound : ep.Sound) (a : Action) : (ep.act a).Sound := by
  cases a with
  | openStream | dispatchStreamFrame | peerGone | close | reset => exact sound.spawn trivial
  | acceptStream => exact ⟨sound.registry, sound.tasks, sound.handed⟩
  | step index ch =>
    cases found : ep.tasks[index]? with
    | none =>
      rw [Endpoint.act, found]
      exact sound
    | some task =>
      have isSound := sound.tasks task (mem_of_getElem? found)
      have eff := effect_advance sound isSound ch
      rw [act_step found]
      refine ⟨eff.registry, ?_, ?_⟩
      · intro other mem
        rcases mem_or_eq_of_mem_set mem with pre | rfl
        · exact (sound.tasks other pre).extends eff.isExtended
        · exact eff.next
      intro p mem
      have named : ∃ key sid, ep.registry.Named p key sid := by
        rw [eff.handed, mem_append, mem_toList] at mem
        exact mem.elim (sound.handed p) (named_of_handsOut isSound)
      obtain ⟨key, sid, named⟩ := named
      exact ⟨key, sid, eff.isExtended.named p key sid named⟩

theorem sound_newEndpoint (localPub : PublicKey) : (newEndpoint localPub).Sound where
  registry := by
    constructor
    · intro key mgr found
      rw [newEndpoint, AList.lookup_empty] at found
      cases found
    · intro key mgr sid p owner
      cases owner
  tasks := nofun
  handed := nofun

/-! ## Reachable streams stay reachable -/

section

variable {post : Endpoint} {key : PublicKey} (eff : Effect ep task post next)
  (named : ep.registry.Named p key sid)

include eff named

theorem Effect.standing_iff (pre : ep.registry.Over p ∨ ep.registry.Hooked p) :
    post.registry.Over p ∨ post.registry.Hooked p ↔
      (Unhooks ep.registry task p → ep.registry.Over p) := by
  have hooked := (hooked_iff (eff.isExtended.named p key sid named)).trans
    (eff.find p key sid named)
  constructor
  · rintro (isOver | stays) unhooked
    · rcases eff.ended p key sid named isOver with isOver | quiet
      · exact isOver
      · exact absurd unhooked (quiet.2 p)
    · exact absurd unhooked (hooked.mp stays).2
  intro spared
  rcases pre with isOver | wasHooked
  · exact .inl (eff.isExtended.ended p isOver)
  by_cases unhooked : Unhooks ep.registry task p
  · exact .inl (eff.isExtended.ended p (spared unhooked))
  · exact .inr (hooked.mpr ⟨(hooked_iff named).mp wasHooked, unhooked⟩)

theorem Effect.handed_iff (hands : ep.handsOut task = some p) :
    post.registry.Over p ∨ post.registry.Hooked p ↔ ep.registry.Over p ∨ ep.registry.Hooked p := by
  have keeps : ¬Unhooks ep.registry task p := by
    cases task with
    | opened | offer => exact id
    | _ => cases hands
  have hooked := (hooked_iff (eff.isExtended.named p key sid named)).trans
    (eff.find p key sid named)
  constructor
  · rintro (isOver | isHooked)
    · rcases eff.ended p key sid named isOver with isOver | quiet
      · exact .inl isOver
      · rw [quiet.1] at hands
        cases hands
    · exact .inr ((hooked_iff named).mpr (hooked.mp isHooked).1)
  · intro pre
    exact (eff.standing_iff named pre).mpr fun unhooked => absurd unhooked keeps

end

theorem reachable_step_iff (sound : ep.Sound) (reachable : ep.Reachable)
    (found : ep.tasks[index]? = some task) (ch : Nat) :
    (ep.act (.step index ch)).Reachable ↔ ep.Keeps (.step index ch) := by
  have isSound := sound.tasks task (mem_of_getElem? found)
  have eff := effect_advance sound isSound ch
  rw [act_step found]
  constructor
  · intro post other isTask
    rw [found, some.injEq] at isTask
    subst isTask
    constructor
    · intro p mem
      obtain ⟨key, sid, named⟩ := sound.handed p mem
      have stands := post p (by rw [eff.handed]; exact mem_append_left _ mem)
      exact (eff.standing_iff named (reachable p mem)).mp stands
    intro p hands
    obtain ⟨key, sid, named⟩ := named_of_handsOut isSound hands
    have stands := post p (by rw [eff.handed, hands]; simp)
    exact (eff.handed_iff named hands).mp stands
  intro keeps p mem
  obtain ⟨spared, good⟩ := keeps task found
  have cases := mem
  rw [eff.handed, mem_append, mem_toList] at cases
  rcases cases with pre | hands
  · obtain ⟨key, sid, named⟩ := sound.handed p pre
    exact (eff.standing_iff named (reachable p pre)).mpr (spared p pre)
  · obtain ⟨key, sid, named⟩ := named_of_handsOut isSound hands
    exact (eff.handed_iff named hands).mpr (good p hands)

theorem reachable_act_iff (sound : ep.Sound) (reachable : ep.Reachable)
    (a : Action) : (ep.act a).Reachable ↔ ep.Keeps a := by
  cases a with
  | step index ch =>
    cases found : ep.tasks[index]? with
    | none =>
      rw [act, found]
      refine iff_of_true reachable ?_
      intro task isTask
      rw [found] at isTask
      cases isTask
    | some => exact reachable_step_iff sound reachable found ch
  | _ => exact iff_of_true reachable trivial

/-! ## Calls that do not get in each other's way -/

def manager : StreamTask → Option (PublicKey × Nat)
  | .allocate remote mgr => some (remote, mgr)
  | .enter remote mgr _ => some (remote, mgr)
  | .dispatch src mgr _ _ _ => some (src, mgr)
  | _ => none

def pending : StreamTask → Option Nat
  | .opened p => some p
  | .offer _ _ _ p => some p
  | _ => none

def InUse (ep : Endpoint) (p : Nat) : Prop :=
  p ∈ ep.handed ∨ ∃ task ∈ ep.tasks, pending task = some p

/-- A step takes no stream out that is in use, unless the stream is closed or reset, and
`peerGone` drops no manager that a call has looked up and is still to enter a stream into. -/
def Orderly (ep : Endpoint) : Action → Prop
  | .step index _ => ∀ task, ep.tasks[index]? = some task →
      (∀ p, Unhooks ep.registry task p → ep.InUse p → ep.registry.Over p) ∧
      ∀ key mgr, task = .peerGone key → ep.registry.pmap.lookup key = some mgr →
        ∀ other ∈ ep.tasks, manager other ≠ some (key, mgr)
  | _ => True

/-- The managers that calls have looked up are still there, and the streams that they are going
to hand out can be found, or are closed or reset. -/
structure ReadyTask (registry : Registry) (task : StreamTask) : Prop where
  current : ∀ remote mgr, manager task = some (remote, mgr) →
    registry.pmap.lookup remote = some mgr
  stands : ∀ p, pending task = some p → registry.Over p ∨ registry.Hooked p

def Ready (ep : Endpoint) : Prop :=
  ∀ task ∈ ep.tasks, ReadyTask ep.registry task

theorem readyTask_of_none (noManager : manager task = none) (noStream : pending task = none) :
    ReadyTask reg task where
  current r mgr isManager := by
    rw [noManager] at isManager
    cases isManager
  stands p isPending := by
    rw [noStream] at isPending
    cases isPending

theorem readyTask_of_manager (isManager : manager task = some (r, mgr))
    (noStream : pending task = none) (current : reg.pmap.lookup r = some mgr) :
    ReadyTask reg task where
  current other another same := by
    rw [isManager, some.injEq, Prod.mk.injEq] at same
    rw [← same.1, ← same.2]
    exact current
  stands p isPending := by
    rw [noStream] at isPending
    cases isPending

theorem readyTask_enter (current : reg.pmap.lookup r = some mgr)
    (owner : reg.owner mgr = some r) (sid : UInt64) (noManager : manager task = none)
    (isPending : pending task = some reg.streams.length) :
    ReadyTask (reg.enter mgr r sid) task where
  current other another isManager := by
    rw [noManager] at isManager
    cases isManager
  stands p same := by
    rw [isPending, some.injEq] at same
    subst same
    exact .inr ((hooked_iff (named_enter mgr r sid)).mpr (find_enter_self current owner sid))

theorem readyTask_next (isSound : TaskSound ep.registry task)
    (ready : ReadyTask ep.registry task) (ch : Nat) :
    ReadyTask (ep.advance ch task).1.registry (ep.advance ch task).2 := by
  cases task with
  | openStream r => exact readyTask_of_manager rfl rfl (lookup_getManager ep.registry r)
  | allocate r mgr =>
    refine readyTask_of_manager rfl rfl ?_
    have current := ready.current r mgr rfl
    rw [advance, Registry.allocID]
    split <;> exact current
  | enter r mgr sid => exact readyTask_enter (ready.current r mgr rfl) isSound sid rfl rfl
  | opened | withdraw | deliver | clear | remove | returned => exact readyTask_of_none rfl rfl
  | frame src => exact readyTask_of_manager rfl rfl (lookup_getManager ep.registry src)
  | dispatch src mgr sid =>
    rw [advance]
    split
    · split
      · exact readyTask_of_none rfl rfl
      · exact readyTask_enter (ready.current src mgr rfl) isSound sid rfl rfl
    · exact readyTask_of_none rfl rfl
  | offer | peerGone | reset =>
    rw [advance]
    split <;> exact readyTask_of_none rfl rfl
  | resetAll =>
    rw [advance]
    split
    · split <;> exact readyTask_of_none rfl rfl
    · exact readyTask_of_none rfl rfl
  | close =>
    rw [advance]
    split
    · exact readyTask_of_none rfl rfl
    · split <;> exact readyTask_of_none rfl rfl

theorem lookup_advance (current : ep.registry.pmap.lookup r = some mgr)
    (stays : task ≠ .peerGone r) (ch : Nat) :
    (ep.advance ch task).1.registry.pmap.lookup r = some mgr := by
  cases task with
  | openStream other => exact lookup_getManager_of_some current other
  | allocate =>
    rw [advance, Registry.allocID]
    split <;> exact current
  | enter | opened | withdraw | deliver | clear | returned => exact current
  | frame src => exact lookup_getManager_of_some current src
  | dispatch =>
    rw [advance]
    split
    · split <;> exact current
    · exact current
  | offer | resetAll | reset =>
    rw [advance]
    split <;> exact current
  | peerGone key =>
    have apart : r ≠ key := by
      rintro rfl
      exact stays rfl
    rw [advance]
    split
    · exact current
    · exact (AList.lookup_erase_ne apart).trans current
  | close =>
    rw [advance]
    split
    · exact current
    · split <;> exact current
  | remove =>
    rw [advance, Registry.removeStream]
    split <;> exact current

theorem ready_spawn (ready : ep.Ready) (isReady : ReadyTask ep.registry task) :
    (ep.spawn task).Ready := by
  intro other mem
  rcases mem_append.mp mem with pre | added
  · exact ready other pre
  · rw [mem_singleton.mp added]
    exact isReady

theorem ready_step (sound : ep.Sound) (ready : ep.Ready)
    (found : ep.tasks[index]? = some task) (tidy : ep.Orderly (.step index ch)) :
    (ep.act (.step index ch)).Ready := by
  have mem := mem_of_getElem? found
  have isSound := sound.tasks task mem
  have eff := effect_advance sound isSound ch
  obtain ⟨spared, undisturbed⟩ := tidy task found
  rw [act_step found]
  intro other isOther
  rcases mem_or_eq_of_mem_set isOther with pre | rfl
  · constructor
    · intro r mgr isManager
      have current := (ready other pre).current r mgr isManager
      refine lookup_advance current ?_ ch
      intro isGone
      exact undisturbed r mgr isGone current other pre isManager
    intro p isPending
    obtain ⟨key, sid, named⟩ : ∃ key sid, ep.registry.Named p key sid := by
      have otherSound := sound.tasks other pre
      cases other with
      | opened =>
        rw [← some.inj isPending]
        exact otherSound
      | offer =>
        rw [← some.inj isPending]
        exact otherSound.2
      | _ => cases isPending
    refine (eff.standing_iff named ((ready other pre).stands p isPending)).mpr ?_
    intro unhooked
    exact spared p unhooked (.inr ⟨other, pre, isPending⟩)
  · exact readyTask_next isSound (ready task mem) ch

theorem Ready.act (sound : ep.Sound) (ready : ep.Ready)
    (tidy : ep.Orderly a) : (ep.act a).Ready := by
  cases a with
  | step index =>
    cases found : ep.tasks[index]? with
    | none =>
      rw [Endpoint.act, found]
      exact ready
    | some => exact ready_step sound ready found tidy
  | acceptStream => exact ready
  | _ => exact ready_spawn ready (readyTask_of_none rfl rfl)

theorem keeps_of_orderly (ready : ep.Ready) (tidy : ep.Orderly a) : ep.Keeps a := by
  cases a with
  | step =>
    intro task found
    obtain ⟨spared, -⟩ := tidy task found
    refine ⟨fun p mem unhooked => spared p unhooked (.inl mem), ?_⟩
    intro p hands
    apply (ready task (mem_of_getElem? found)).stands p
    cases task with
    | opened => exact hands
    | offer =>
      rw [handsOut] at hands
      split at hands
      · exact hands
      · cases hands
    | _ => cases hands
  | _ => trivial

/-- Streams that have been handed out can be found, until they are closed or reset, exactly if
each step takes only closed or reset ones from the manager of their peer and hands out none that
cannot be found. This is so if `peerGone` drops no manager into which a call is about to enter
a stream, and if no step takes out a stream that is in use. -/
theorem reachable_iff (localPub : PublicKey) (actions : List Action) :
    (machine.Always Reachable (newEndpoint localPub) actions ↔
        machine.Obeys Keeps (newEndpoint localPub) actions) ∧
      (machine.Obeys Orderly (newEndpoint localPub) actions →
        machine.Always Reachable (newEndpoint localPub) actions) := by
  have exactly : machine.Always Reachable (newEndpoint localPub) actions ↔
      machine.Obeys Keeps (newEndpoint localPub) actions := by
    apply @Machine.always_iff_obeys _ _ machine Sound
    · intro endpoint action sound
      exact sound.act action
    · intro endpoint action sound reachable
      exact reachable_act_iff sound reachable action
    · exact sound_newEndpoint localPub
    · exact nofun
  refine ⟨exactly, ?_⟩
  intro orderly
  rw [exactly]
  apply @Machine.Obeys.consequence _ _ machine Orderly
    (fun endpoint => endpoint.Sound ∧ endpoint.Ready) _ _ orderly
  · exact ⟨sound_newEndpoint localPub, nofun⟩
  · rintro endpoint action ⟨sound, ready⟩ permitted
    exact ⟨sound.act action, ready.act sound permitted⟩
  · rintro endpoint action ⟨sound, ready⟩ permitted
    exact keeps_of_orderly ready permitted

def here : PublicKey := ⟨List.replicate 32 1, List.length_replicate⟩

def there : PublicKey := ⟨List.replicate 32 2, List.length_replicate⟩

/-- A stream is opened and closed, and then the peer is gone. -/
def openAlone : List Action :=
  [.openStream there, .step 0 0, .step 0 0, .step 0 0, .step 0 0, .close 0, .step 1 0, .step 1 0,
    .peerGone there, .step 2 0, .step 2 0, .step 2 0]

def keepsAll : StreamTask → Bool
  | .enter _ _ _ | .withdraw _ _ _ | .remove _ _ | .peerGone _ => false
  | _ => true

theorem orderly_of_keepsAll (keeps : (ep.tasks[index]?).all keepsAll) :
    ep.Orderly (.step index ch) := by
  intro task found
  rw [found, all_some] at keeps
  cases task with
  | enter | withdraw | remove | peerGone => cases keeps
  | _ => exact ⟨fun _ unhooked => unhooked.elim, nofun⟩

theorem openAlone_orderly : machine.Obeys Orderly (newEndpoint here) openAlone := by
  refine ⟨trivial, orderly_of_keepsAll rfl, orderly_of_keepsAll rfl, ?_, orderly_of_keepsAll rfl,
    trivial, orderly_of_keepsAll rfl, ?_, trivial, ?_, orderly_of_keepsAll rfl,
    orderly_of_keepsAll rfl, trivial⟩
  · intro task found
    cases some.inj found
    refine ⟨?_, nofun⟩
    rintro p ⟨-, isFound⟩
    cases isFound
  · intro task found
    cases some.inj found
    refine ⟨fun p isFound _ => ?_, nofun⟩
    cases some.inj isFound
    exact ⟨_, rfl, .inl rfl⟩
  · intro task found
    cases some.inj found
    constructor
    · rintro p ⟨sid, isFound⟩
      cases isFound
    · rintro key mgr - - other mem
      fin_cases mem <;> exact nofun

theorem openAlone_reachable :
    machine.Obeys Orderly (newEndpoint here) openAlone ∧
      (machine.run (newEndpoint here) openAlone).handed = [0] ∧
      machine.Always Reachable (newEndpoint here) openAlone :=
  ⟨openAlone_orderly, rfl, (reachable_iff here openAlone).2 openAlone_orderly⟩

/-- The peer is gone after `OpenStream` has looked up its manager, and before it has entered
the stream. -/
def goneMeanwhile : List Action :=
  [.openStream there, .step 0 0, .peerGone there, .step 1 0, .step 1 0, .step 1 0, .step 0 0,
    .step 0 0, .step 0 0]

theorem goneMeanwhile_unreachable :
    (machine.run (newEndpoint here) goneMeanwhile).tasks = [.returned, .returned] ∧
      (machine.run (newEndpoint here) goneMeanwhile).handed = [0] ∧
      (machine.run (newEndpoint here) goneMeanwhile).registry.streams = [newStream 1001 there] ∧
      (machine.run (newEndpoint here) goneMeanwhile).registry.pmap.lookup there = none ∧
      ¬machine.Always Reachable (newEndpoint here) goneMeanwhile := by
  have streams : (machine.run (newEndpoint here) goneMeanwhile).registry.streams =
      [newStream 1001 there] := by
    rfl
  have noManager :
      (machine.run (newEndpoint here) goneMeanwhile).registry.pmap.lookup there = none := by
    rfl
  refine ⟨rfl, rfl, streams, noManager, ?_⟩
  intro always
  rcases always goneMeanwhile [] (append_nil _).symm 0 mem_cons_self with
    ⟨stream, found, isOver⟩ | ⟨stream, found, isFound⟩
  · rw [streams] at found
    cases Option.some.inj found
    cases isOver with
    | inl closed => cases closed
    | inr isReset => cases isReset
  rw [streams] at found
  cases Option.some.inj found
  rw [Registry.find] at isFound
  change ((machine.run (newEndpoint here) goneMeanwhile).registry.pmap.lookup there).bind _ =
    some 0 at isFound
  rw [noManager] at isFound
  cases isFound

end Endpoint

end Peerscale.IrohRelay
