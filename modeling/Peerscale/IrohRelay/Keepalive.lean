import Peerscale.IrohRelay.Generations

/-! # Keepalive of a connection

On a tick `runLoop` sends a ping, unless an earlier one has not been answered. The number of
the ping that waits for its answer outlives the websocket on which it was written.
-/

namespace Peerscale.IrohRelay

namespace IrohRelayConn

variable {conn : IrohRelayConn}

def recent (conn : IrohRelayConn) (now : Time) : Prop :=
  Time.sub now conn.lastRecv ≤ relayPingInterval * 3
  deriving Decidable

def pingWritten (conn : IrohRelayConn) : Action → Option (WebSocket × Nat)
  | .takeTick now written =>
    if conn.runLoop = .wait ∧ conn.recent now ∧ conn.pendingPing = 0 ∧ written then
      conn.ws.map fun ws => (ws, (conn.pingSeq + 1) % 2 ^ 64)
    else none
  | _ => none

/-- The number of a ping that cannot be written. -/
def pingLost (conn : IrohRelayConn) : Action → Nat
  | .takeTick now false =>
    if conn.runLoop = .wait ∧ conn.recent now ∧ conn.pendingPing = 0 then
      (conn.pingSeq + 1) % 2 ^ 64
    else 0
  | _ => 0

end IrohRelayConn

def RunStage.attached : RunStage → Bool
  | .readChallenge _ _ => true
  | .sendAuth _ _ => true
  | .readConfirmation _ _ => true
  | .report _ => true
  | .wait => true
  | _ => false

namespace IrohRelayConn

structure Attached (conn : IrohRelayConn) : Prop where
  stage : conn.runLoop.attached → conn.ws ≠ none
  alive : conn.state = .alive → conn.ws ≠ none
  numbered : ∀ ws, conn.ws = some ws → ws < conn.dialled

/-- What an action does to the websocket: it stays, with whatever the stage that follows needs;
a new one is dialled; it is given up; or a ping is written on it. -/
inductive Turn (conn : IrohRelayConn) (action : Action) (after : IrohRelayConn) : Prop
  | keeps (ws : after.ws = conn.ws) (dialled : after.dialled = conn.dialled)
      (stage : after.runLoop.attached → conn.ws ≠ none)
      (alive : after.state = .alive → conn.ws ≠ none)
      (pending : after.pendingPing = conn.pendingPing ∨ after.pendingPing = 0)
      (unwritten : conn.pingWritten action = none)
  | dials (ws : after.ws = some conn.dialled) (dialled : after.dialled = conn.dialled + 1)
      (pending : after.pendingPing = conn.pendingPing + conn.pingLost action)
      (unwritten : conn.pingWritten action = none)
  | drops (ws : after.ws = none) (dialled : after.dialled = conn.dialled)
      (stage : after.runLoop.attached = false) (state : after.state ≠ .alive)
      (pending : after.pendingPing = conn.pendingPing + conn.pingLost action)
      (unlost : conn.ws = none → conn.pingLost action = 0)
      (unwritten : conn.pingWritten action = none)
  | pings (current : WebSocket) (was : conn.ws = some current) (ws : after.ws = some current)
      (dialled : after.dialled = conn.dialled)
      (written : conn.pingWritten action = some (current, after.pendingPing))

/-- What a `readLoop` leaves alone. Of the ping that is waited for, it can only settle it. -/
structure LeavesRunLoop (conn after : IrohRelayConn) : Prop where
  ws : after.ws = conn.ws
  state : after.state = conn.state
  dialled : after.dialled = conn.dialled
  runLoop : after.runLoop = conn.runLoop
  stopped : after.stopped = conn.stopped
  pendingPing : after.pendingPing = conn.pendingPing ∨ after.pendingPing = 0

theorem leavesRunLoop_handleMessage (conn : IrohRelayConn) (index : Nat) (now : Time)
    (msg : Message) : LeavesRunLoop conn (conn.handleMessage index now msg) := by
  cases msg with
  | empty | ping | other => exact ⟨rfl, rfl, rfl, rfl, rfl, .inl rfl⟩
  | pong =>
    refine ⟨rfl, rfl, rfl, rfl, rfl, ?_⟩
    simp only [handleMessage, setStage]
    split
    · exact .inr rfl
    · exact .inl rfl

theorem leavesRunLoop_advanceRead (conn : IrohRelayConn) (index : Nat) (ev : ReadEvent) :
    LeavesRunLoop conn (conn.advanceRead index ev) := by
  have same : LeavesRunLoop conn conn := ⟨rfl, rfl, rfl, rfl, rfl, .inl rfl⟩
  rw [advanceRead]
  split
  · exact same
  split
  · exact ⟨rfl, rfl, rfl, rfl, rfl, .inl rfl⟩
  · split <;> exact ⟨rfl, rfl, rfl, rfl, rfl, .inl rfl⟩
  · split
    · exact same
    · exact conn.leavesRunLoop_handleMessage index _ _
  · exact ⟨rfl, rfl, rfl, rfl, rfl, .inl rfl⟩
  · exact ⟨rfl, rfl, rfl, rfl, rfl, .inl rfl⟩
  · split <;> exact ⟨rfl, rfl, rfl, rfl, rfl, .inl rfl⟩
  · exact same

theorem Turn.rests {post : IrohRelayConn} (ws : post.ws = conn.ws)
    (dialled : post.dialled = conn.dialled) (stage : post.runLoop.attached = false)
    (alive : post.state = .alive → conn.ws ≠ none) (pending : post.pendingPing = conn.pendingPing)
    (unwritten : conn.pingWritten a = none) : Turn conn a post := by
  refine .keeps ws dialled ?_ alive (.inl pending) unwritten
  intro isAttached
  rw [stage] at isAttached
  cases isAttached

theorem turn_connectFails (base ok : Bool) (now : Time) :
    Turn conn (.advance ok now) (conn.connectFails base) := by
  refine .rests rfl rfl ?_ (fun isAlive => by cases isAlive) rfl rfl
  cases base <;> rfl

theorem turn_handshakeFails (base ok : Bool) (now : Time) (ws : WebSocket) :
    Turn conn (.advance ok now) (conn.handshakeFails base ws) := by
  refine .rests rfl rfl ?_ (fun isAlive => by cases isAlive) rfl rfl
  cases base <;> rfl

theorem turn_advance (attached : conn.Attached) (ok : Bool) (now : Time) :
    Turn conn (.advance ok now) (conn.advance ok now) := by
  have stage := attached.stage
  rw [advance]
  cases running : conn.runLoop with
  | connect => exact .rests rfl rfl rfl (fun isAlive => by cases isAlive) rfl rfl
  | dial base =>
    dsimp only
    split
    · exact .dials rfl rfl rfl rfl
    · exact turn_connectFails base ok now
  | readChallenge base ws | sendAuth base ws | readConfirmation base ws =>
    rw [running] at stage
    dsimp only
    split
    · exact .keeps rfl rfl stage attached.alive (.inl rfl) rfl
    · exact turn_handshakeFails base ok now ws
  | report =>
    rw [running] at stage
    exact .rests rfl rfl rfl (fun _ => stage rfl) rfl rfl
  | backoff => exact .rests rfl rfl rfl attached.alive rfl rfl
  | check =>
    dsimp only
    split
    · rename_i isAlive
      exact .keeps rfl rfl (fun _ => attached.alive isAlive) attached.alive (.inl rfl) rfl
    · exact .drops rfl rfl rfl (fun isAlive => by cases isAlive) rfl (fun _ => rfl) rfl
  | checkStop =>
    dsimp only
    split <;> exact .rests rfl rfl rfl attached.alive rfl rfl
  | wait | returned => exact .keeps rfl rfl attached.stage attached.alive (.inl rfl) rfl

theorem turn_takeTick (attached : conn.Attached) (now : Time) (written : Bool) :
    Turn conn (.takeTick now written) (conn.takeTick now written) := by
  rw [takeTick]
  split
  · rename_i waiting
    obtain ⟨cur, isCurrent⟩ := Option.ne_none_iff_exists'.mp (attached.stage (by rw [waiting]; rfl))
    split
    · rename_i late
      have old : ¬conn.recent now := Int.not_le.mpr late
      have unlost : conn.pingLost (.takeTick now written) = 0 := by
        cases written
        · exact if_neg fun due => old due.2.1
        · rfl
      exact .drops rfl rfl rfl (fun isAlive => by cases isAlive) (by rw [unlost]; rfl)
        (fun _ => unlost) (if_neg fun due => old due.2.1)
    rename_i notLate
    split
    · rename_i pending
      exact .rests rfl rfl rfl attached.alive rfl (if_neg fun due => pending due.2.2.1)
    rename_i settled
    have isRecent : conn.recent now := Int.not_lt.mp notLate
    have isSettled : conn.pendingPing = 0 := Decidable.not_not.mp settled
    cases written with
    | true =>
      simp only [isCurrent, Option.isSome_some, Bool.and_true, if_true]
      refine .pings cur isCurrent rfl rfl ?_
      simp [pingWritten, waiting, isRecent, isSettled, isCurrent]
    | false =>
      simp only [Bool.and_false, Bool.false_eq_true, if_false]
      refine .drops rfl rfl rfl (fun isAlive => by cases isAlive) ?_ ?_ (by simp [pingWritten])
      · simp [pingLost, waiting, isRecent, isSettled, shutdown]
      intro absent
      rw [isCurrent] at absent
      cases absent
  rename_i notWaiting
  exact .keeps rfl rfl attached.stage attached.alive (.inl rfl) (if_neg fun due => notWaiting due.1)

theorem turn_act (attached : conn.Attached) (a : Action) : Turn conn a (machine.act conn a) := by
  cases a with
  | advance ok now => exact turn_advance attached ok now
  | takeStop =>
    show Turn conn _ conn.takeStop
    rw [takeStop]
    split
    · split
      · exact .drops rfl rfl rfl (fun isAlive => by cases isAlive) rfl (fun _ => rfl) rfl
      · exact .rests rfl rfl rfl attached.alive rfl rfl
      · exact .keeps rfl rfl attached.stage attached.alive (.inl rfl) rfl
    · exact .keeps rfl rfl attached.stage attached.alive (.inl rfl) rfl
  | takeReconnect =>
    show Turn conn _ conn.takeReconnect
    rw [takeReconnect]
    split
    · exact .drops rfl rfl rfl (fun isAlive => by cases isAlive) rfl (fun _ => rfl) rfl
    · exact .keeps rfl rfl attached.stage attached.alive (.inl rfl) rfl
  | takeTick now written => exact turn_takeTick attached now written
  | advanceRead index ev =>
    have leaves := conn.leavesRunLoop_advanceRead index ev
    refine .keeps leaves.ws leaves.dialled ?_ ?_ leaves.pendingPing rfl
    · intro isAttached
      exact attached.stage (leaves.runLoop ▸ isAttached)
    · intro isAlive
      exact attached.alive (leaves.state ▸ isAlive)
  | stop => exact .keeps rfl rfl attached.stage attached.alive (.inl rfl) rfl

theorem Turn.attached (turn : Turn conn a post) (attached : conn.Attached) : post.Attached := by
  cases turn with
  | keeps ws dialled stage alive =>
    rw [← ws] at stage alive
    refine ⟨stage, alive, ?_⟩
    rw [ws, dialled]
    exact attached.numbered
  | dials ws dialled =>
    refine ⟨fun _ => by simp [ws], fun _ => by simp [ws], ?_⟩
    intro cur isCurrent
    rw [ws, Option.some.injEq] at isCurrent
    rw [dialled, ← isCurrent]
    exact Nat.lt_succ_self _
  | drops ws dialled stage state =>
    exact ⟨by simp [stage], fun isAlive => absurd isAlive state, by simp [ws]⟩
  | pings cur was ws dialled =>
    refine ⟨fun _ => by simp [ws], fun _ => by simp [ws], ?_⟩
    rw [ws, dialled, ← was]
    exact attached.numbered

theorem Turn.dialled_le (turn : Turn conn a post) : conn.dialled ≤ post.dialled := by
  cases turn with
  | keeps ws dialled | drops ws dialled | pings cur was ws dialled => exact dialled.ge
  | dials => omega

end IrohRelayConn

structure Keepalive where
  conn : IrohRelayConn
  pings : List (WebSocket × Nat)

namespace Keepalive

open IrohRelayConn

def act (alive : Keepalive) (action : Action) : Keepalive where
  conn := IrohRelayConn.machine.act alive.conn action
  pings := alive.pings ++ (alive.conn.pingWritten action).toList

def machine : Machine Keepalive Action := ⟨act⟩

def newKeepalive (now : Time) : Keepalive := ⟨newRelayConn now, []⟩

variable {alive : Keepalive}

def Answerable (alive : Keepalive) : Prop :=
  alive.conn.pendingPing ≠ 0 →
    ∃ ws, alive.conn.ws = some ws ∧ (ws, alive.conn.pendingPing) ∈ alive.pings

/-- If no ping has been written on the websocket, a tick sends one, unless nothing has been
received for long. -/
def FirstTickPings (alive : Keepalive) : Action → Prop
  | .takeTick now written =>
    alive.conn.runLoop = .wait → alive.conn.recent now →
    (∀ ws seq, alive.conn.ws = some ws → (ws, seq) ∉ alive.pings) → ∃ ws, alive.conn.ws = some ws ∧
        (alive.act (.takeTick now written)).conn.pingSeq = (alive.conn.pingSeq + 1) % 2 ^ 64 ∧
        (written → (alive.act (.takeTick now written)).pings =
          alive.pings ++ [(ws, (alive.conn.pingSeq + 1) % 2 ^ 64)])
  | _ => True

/-- When the websocket is given up or replaced, no ping is waited for, nor is it given up because
one cannot be written. -/
def ChangesSettled (alive : Keepalive) (action : Action) : Prop :=
  (alive.act action).conn.ws ≠ alive.conn.ws →
    alive.conn.pendingPing = 0 ∧ alive.conn.pingLost action = 0

structure Known (alive : Keepalive) : Prop where
  attached : alive.conn.Attached
  dialled : ∀ ping ∈ alive.pings, ping.1 < alive.conn.dialled

theorem Known.act (known : alive.Known) (a : Action) : (alive.act a).Known where
  attached := (turn_act known.attached a).attached known.attached
  dialled ping mem := by
    have turn := turn_act known.attached a
    have grown : alive.conn.dialled ≤ (alive.act a).conn.dialled := turn.dialled_le
    rcases List.mem_append.mp mem with prev | new
    · exact Nat.lt_of_lt_of_le (known.dialled ping prev) grown
    rw [Option.mem_toList] at new
    cases turn with
    | pings cur was ws dialled written =>
      rw [written] at new
      cases new
      exact Nat.lt_of_lt_of_le (known.attached.numbered cur was) grown
    | _ => simp_all

theorem answerable_changed_iff (known : alive.Known) (ws : (alive.act a).conn.ws ≠ alive.conn.ws)
    (new : ∀ cur, (alive.act a).conn.ws = some cur → alive.conn.dialled ≤ cur)
    (pending : (alive.act a).conn.pendingPing = alive.conn.pendingPing + alive.conn.pingLost a)
    (unwritten : alive.conn.pingWritten a = none) :
    (alive.act a).Answerable ↔ alive.ChangesSettled a := by
  rw [ChangesSettled, ← Nat.add_eq_zero_iff, ← pending]
  constructor
  · intro post _
    by_contra waiting
    obtain ⟨cur, isCurrent, written⟩ := post waiting
    have prev : (cur, (alive.act a).conn.pendingPing) ∈ alive.pings := by
      simpa [act, unwritten] using written
    exact Nat.not_lt.mpr (new cur isCurrent) (known.dialled _ prev)
  · intro settled waiting
    exact absurd (settled ws) waiting

theorem Answerable.kept (answerable : alive.Answerable) (ws : (alive.act a).conn.ws = alive.conn.ws)
    (pending : (alive.act a).conn.pendingPing = alive.conn.pendingPing ∨
      (alive.act a).conn.pendingPing = 0) : (alive.act a).Answerable := by
  intro waiting
  rcases pending with same | settled
  · rw [same] at waiting ⊢
    obtain ⟨cur, isCurrent, written⟩ := answerable waiting
    exact ⟨cur, ws.trans isCurrent, List.mem_append_left _ written⟩
  · exact absurd settled waiting

theorem answerable_act_iff (known : alive.Known) (answerable : alive.Answerable)
    (a : Action) : (alive.act a).Answerable ↔ alive.ChangesSettled a := by
  cases turn_act known.attached a with
  | keeps ws dialled stage isAlive pending =>
    exact iff_of_true (answerable.kept ws pending) fun changes => absurd ws changes
  | dials ws dialled pending unwritten =>
    apply answerable_changed_iff known _ _ pending unwritten
    · intro same
      exact Nat.lt_irrefl _ (known.attached.numbered _ (same.symm.trans ws))
    · intro cur isCurrent
      exact (Option.some.inj (ws.symm.trans isCurrent)).le
  | drops ws dialled stage state pending unlost unwritten =>
    cases was : alive.conn.ws with
    | none =>
      have same := ws.trans was.symm
      rw [unlost was] at pending
      exact iff_of_true (answerable.kept same (.inl pending)) fun changes => absurd same changes
    | some =>
      apply answerable_changed_iff known _ _ pending unwritten
      · intro same
        cases ws.symm.trans (same.trans was)
      · intro other isOther
        cases ws.symm.trans isOther
  | pings cur was ws dialled written =>
    refine iff_of_true ?_ (fun changes => absurd (ws.trans was.symm) changes)
    intro _
    refine ⟨cur, ws, List.mem_append_right _ ?_⟩
    rw [written]
    exact List.mem_singleton_self _

theorem Answerable.firstTickPings (answerable : alive.Answerable) (known : alive.Known)
    (a : Action) : alive.FirstTickPings a := by
  cases a with
  | takeTick now written =>
    intro waiting isRecent unwritten
    obtain ⟨cur, isCurrent⟩ := Option.ne_none_iff_exists'.mp
      (known.attached.stage (by rw [waiting]; rfl))
    have settled : alive.conn.pendingPing = 0 := by
      by_contra pending
      obtain ⟨ws, isWs, written⟩ := answerable pending
      exact unwritten ws _ isWs written
    have notLate : ¬Time.sub now alive.conn.lastRecv > relayPingInterval * 3 :=
      Int.not_lt.mpr isRecent
    refine ⟨cur, isCurrent, ?_, ?_⟩
    · show (alive.conn.takeTick now written).pingSeq = _
      simp only [takeTick, waiting, notLate, settled, if_false, ne_eq, not_true]
      split <;> rfl
    · intro isWritten
      simp [act, pingWritten, waiting, isRecent, settled, isWritten, isCurrent]
  | _ => trivial

theorem known_newKeepalive (now : Time) : (newKeepalive now).Known where
  attached := ⟨nofun, nofun, nofun⟩
  dialled := nofun

/-- The ping that is waited for was always written on the current websocket exactly if no ping
is waited for when a websocket is given up or replaced, and none is given up because a ping
cannot be written; and then the first tick on each websocket sends a ping. -/
theorem answerable_iff (now : Time) (actions : List Action) :
    (machine.Always Answerable (newKeepalive now) actions ↔
        machine.Obeys ChangesSettled (newKeepalive now) actions) ∧
      (machine.Obeys ChangesSettled (newKeepalive now) actions →
        machine.Obeys FirstTickPings (newKeepalive now) actions) := by
  have start : (newKeepalive now).Answerable := fun waiting => absurd rfl waiting
  constructor
  · exact @Machine.always_iff_obeys Keepalive Action machine Known Answerable ChangesSettled
      (fun _ action known => known.act action)
      (fun _ action known answerable => answerable_act_iff known answerable action)
      _ (known_newKeepalive now) start actions
  intro obeys
  apply @Machine.Obeys.consequence Keepalive Action machine ChangesSettled
    (fun alive => alive.Known ∧ alive.Answerable) _ _ obeys ⟨known_newKeepalive now, start⟩
  · intro alive action holds settled
    exact ⟨holds.1.act action, (answerable_act_iff holds.1 holds.2 action).mpr settled⟩
  · intro alive action holds _
    exact holds.2.firstTickPings holds.1 action

/-- A connection is lost after a ping and before its answer, and another one is made. -/
def lostAfterPing : List Action :=
  connects ++ [.advance true 0, .takeTick 0 true, .advance true 0,
    .advanceRead 0 (.turn true), .advanceRead 0 (.turn true), .advanceRead 0 .error,
    .advanceRead 0 (.turn true), .takeReconnect, .advance true 0, .advance true 0] ++
  connects ++ [.advance true 0]

theorem lostAfterPing_skips :
    (machine.run (newKeepalive 0) lostAfterPing).conn.runLoop = .wait ∧
      (machine.run (newKeepalive 0) lostAfterPing).conn.ws = some 1 ∧
      (machine.run (newKeepalive 0) lostAfterPing).conn.pendingPing = 1 ∧
      (machine.run (newKeepalive 0) lostAfterPing).pings = [(0, 1)] ∧
      (machine.run (newKeepalive 0) (lostAfterPing ++ [.takeTick 0 true])).pings = [(0, 1)] ∧
      ¬machine.Always Answerable (newKeepalive 0) lostAfterPing := by
  have ws : (machine.run (newKeepalive 0) lostAfterPing).conn.ws = some 1 := by decide +kernel
  have pending : (machine.run (newKeepalive 0) lostAfterPing).conn.pendingPing = 1 := by
    decide +kernel
  have pings : (machine.run (newKeepalive 0) lostAfterPing).pings = [(0, 1)] := by decide +kernel
  refine ⟨by decide +kernel, ws, pending, pings, by decide +kernel, ?_⟩
  intro always
  have answerable := always lostAfterPing [] (List.append_nil _).symm
  obtain ⟨current, isCurrent, written⟩ := answerable (by rw [pending]; decide)
  rw [ws, Option.some.injEq] at isCurrent
  rw [pings, ← isCurrent, pending] at written
  exact absurd written (by decide)

end Keepalive

end Peerscale.IrohRelay
