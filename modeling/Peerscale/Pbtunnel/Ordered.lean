import Peerscale.Pbtunnel.Forwarding

/-! # The order on the path

Whatever the ends and the goroutines do, and whatever is closed meanwhile: once a byte has been
lost, nothing after it arrives.
-/

namespace Peerscale.Pbtunnel

open List Stage

/-- The loop may still write, and what it writes can be read. -/
def Feeds (dropped : Bool) : Stage → Prop
  | .reading | .writing _ _ _ => dropped = false
  | .returning _ | .done => False

theorem Feeds.isOpen (feeds : Feeds dropped stage) : dropped = false := by
  cases stage with
  | reading | writing => exact feeds
  | returning | done => exact feeds.elim

/-- A loop that goes on has lost nothing. -/
structure Carries (src sink : Channel) (before after : Stage) (left filled : Channel) : Prop where
  source : left.dropped = src.dropped
  writes : filled = sink ∨ Feeds sink.dropped before ∧ ∃ part more, before.pending = part ++ more ∧
    filled = { sink with buffer := sink.buffer ++ part }
  feeds : Feeds filled.dropped after → Feeds sink.dropped before ∧ ∀ later,
    filled.buffer ++ (after.pending ++ (left.buffer ++ later)) =
      sink.buffer ++ (before.pending ++ (src.buffer ++ later))

theorem Copied.carries (copied : Copied halfCloses src sink pre (post, left, filled)) :
    Carries src sink pre post left filled := by
  cases copied with
  | waits | returning | done => exact ⟨rfl, .inl rfl, fun feeds => ⟨feeds, fun _ => rfl⟩⟩
  | fails | refused => exact ⟨rfl, .inl rfl, False.elim⟩
  | reads first rest left failed content =>
    refine ⟨rfl, .inl rfl, fun feeds => ⟨feeds, fun later => ?_⟩⟩
    rw [content, append_assoc]
    rfl
  | writes part more split =>
    rw [Channel.write]
    split
    case isTrue dropped =>
      exact ⟨rfl, .inl rfl, fun feeds => absurd dropped (Bool.eq_false_iff.mp feeds.isOpen)⟩
    case isFalse notDropped =>
      have isOpen := Bool.eq_false_iff.mpr notDropped
      refine ⟨rfl, .inr ⟨isOpen, part, more, split, rfl⟩, fun _ => ⟨isOpen, fun later => ?_⟩⟩
      rw [(cost_after ..).1, pending, split, append_assoc, append_assoc]

namespace Lane

/-- What is at or before a loop that has stopped, or an end that has been closed, is lost. -/
structure InOrder (lane : Lane) : Prop where
  arrived : ∃ lost, lane.sent = lane.received ++ (lane.out.buffer ++ lost)
  leaving : Feeds lane.out.dropped lane.leave → ∃ lost, lane.sent =
    lane.received ++ (lane.out.buffer ++ (lane.leave.pending ++ (lane.between.buffer ++ lost)))
  entering : Feeds lane.out.dropped lane.leave → Feeds lane.between.dropped lane.enter →
    ∃ lost, lane.sent = lane.received ++ (lane.out.buffer ++ (lane.leave.pending ++
      (lane.between.buffer ++ (lane.enter.pending ++ (lane.into.buffer ++ lost))))) ∧
      (lane.into.dropped = false → lost = [])

namespace InOrder

variable {lane : Lane} (inOrder : lane.InOrder)

include inOrder

theorem send (bytes : Bytes) : (lane.send bytes).InOrder := by
  rw [Lane.send]
  split
  · exact inOrder
  refine ⟨?_, fun leave => ?_, fun leave enter => ?_⟩
  · obtain ⟨lost, all⟩ := inOrder.arrived
    exact ⟨lost ++ bytes, by simp [all]⟩
  · obtain ⟨lost, all⟩ := inOrder.leaving leave
    exact ⟨lost ++ bytes, by simp [all]⟩
  · obtain ⟨lost, all, none⟩ := inOrder.entering leave enter
    -- What is sent to a closed end joins what is lost.
    rw [Channel.write]
    split
    case isTrue dropped =>
      exact ⟨lost ++ bytes, by simp [all],
        fun isOpen => absurd dropped (Bool.eq_false_iff.mp isOpen)⟩
    case isFalse isOpen =>
      exact ⟨[], by simp [all, none (Bool.eq_false_iff.mpr isOpen)], fun _ => rfl⟩

theorem copyIn (carries : Carries lane.into lane.between lane.enter stage src sink) :
    InOrder { lane with enter := stage, into := src, between := sink } := by
  refine ⟨inOrder.arrived, fun leave => ?_, fun leave enter => ?_⟩
  · rcases carries.writes with rfl | ⟨enter, part, more, split, rfl⟩
    · exact inOrder.leaving leave
    · obtain ⟨lost, all, -⟩ := inOrder.entering leave enter
      exact ⟨more ++ (lane.into.buffer ++ lost), by simp [all, split]⟩
  · obtain ⟨feeds, moved⟩ := carries.feeds enter
    obtain ⟨lost, all, none⟩ := inOrder.entering leave feeds
    exact ⟨lost, by rw [all, moved], fun isOpen => none (carries.source ▸ isOpen)⟩

theorem copyOut (carries : Carries lane.between lane.out lane.leave stage src sink) :
    InOrder { lane with leave := stage, between := src, out := sink } := by
  refine ⟨?_, fun leave => ?_, fun leave enter => ?_⟩
  · rcases carries.writes with rfl | ⟨leave, part, more, split, rfl⟩
    · exact inOrder.arrived
    · obtain ⟨lost, all⟩ := inOrder.leaving leave
      exact ⟨more ++ (lane.between.buffer ++ lost), by simp [all, split]⟩
  · obtain ⟨feeds, moved⟩ := carries.feeds leave
    obtain ⟨lost, all⟩ := inOrder.leaving feeds
    exact ⟨lost, by rw [all, moved]⟩
  · obtain ⟨feeds, moved⟩ := carries.feeds leave
    obtain ⟨lost, all, none⟩ := inOrder.entering feeds (carries.source ▸ enter)
    exact ⟨lost, by rw [all, moved], none⟩

theorem receive (amt : Nat) : (lane.receive amt).InOrder := by
  rcases lane.receive_spec amt with ⟨received, buf, sawEnd, same, conserved, -⟩
  obtain ⟨arrived, leaving, entering⟩ := inOrder
  simp only [← append_assoc, ← conserved] at arrived leaving entering
  rw [same]
  constructor <;> simpa only [← append_assoc]

theorem dropInto : InOrder { lane with into := lane.into.drop } where
  arrived := inOrder.arrived
  leaving := inOrder.leaving
  entering leave enter := (inOrder.entering leave enter).imp fun _ all => ⟨all.1, nofun⟩

theorem dropBetween : InOrder { lane with between := lane.between.drop } :=
  { inOrder with entering := fun _ enter => by cases enter.isOpen }

end InOrder

end Lane

namespace Path

theorem inOrder_act {path : Path} (up : path.up.InOrder) (down : path.down.InOrder) (a : Action) :
    (path.act a).up.InOrder ∧ (path.act a).down.InOrder := by
  cases a with
  | clientSends bytes => exact ⟨up.send bytes, down⟩
  | clientCloses => exact ⟨{ up with }, down⟩
  | targetSends bytes => exact ⟨up, down.send bytes⟩
  | targetCloses => exact ⟨up, { down with }⟩
  | moves move =>
    rw [act]
    cases move with
    | enterUp =>
      rw [Path.move, enterUp]
      split
      · exact ⟨⟨up.arrived, up.leaving, fun _ => False.elim⟩, down⟩
      · exact ⟨⟨up.arrived, up.leaving, fun _ => False.elim⟩, down.dropBetween⟩
      · exact ⟨up.copyIn (copied_copy ..).carries, down⟩
    | leaveUp =>
      rw [Path.move, leaveUp]
      split
      · exact ⟨⟨up.arrived, False.elim, False.elim⟩, down.dropInto⟩
      · exact ⟨up.copyOut (copied_copy ..).carries, down⟩
    | enterDown =>
      rw [Path.move, enterDown]
      split
      · exact ⟨up, down.arrived, down.leaving, fun _ => False.elim⟩
      · exact ⟨up, down.copyIn (copied_copy ..).carries⟩
    | leaveDown =>
      rw [Path.move, leaveDown]
      split
      · exact ⟨up.dropInto, down.arrived, False.elim, False.elim⟩
      · exact ⟨up, down.copyOut (copied_copy ..).carries⟩
    | handleP2x =>
      rw [Path.move, stepP2x]
      split
      · split
        · exact ⟨{ up with }, down.dropBetween⟩
        · exact ⟨up, down⟩
      · exact ⟨up.dropInto, { down with }⟩
      · exact ⟨up, down⟩
    | handleTunnel =>
      rw [Path.move, stepTunnel]
      split
      · split
        · exact ⟨{ up with }, down.dropInto⟩
        · exact ⟨up, down⟩
      · exact ⟨up.dropBetween, { down with }⟩
      · exact ⟨up, down⟩
    | targetReads amt => exact ⟨up.receive amt, down⟩
    | clientReads amt => exact ⟨up, down.receive amt⟩

/-- Each end has received the beginning of what the other one has sent. -/
theorem received_in_order (actions : List Action) :
    let path := machine.run start actions
    path.up.received <+: path.up.sent ∧ path.down.received <+: path.down.sent := by
  have first : Lane.start.InOrder :=
    ⟨⟨[], rfl⟩, fun _ => ⟨[], rfl⟩, fun _ _ => ⟨[], rfl, fun _ => rfl⟩⟩
  obtain ⟨⟨⟨_, up⟩, -⟩, ⟨⟨_, down⟩, -⟩⟩ := @Machine.invariant _ _ machine
    (fun path => path.up.InOrder ∧ path.down.InOrder) start ⟨first, first⟩
    (fun _ a holds => inOrder_act holds.1 holds.2 a) actions
  exact ⟨⟨_, up.symm⟩, ⟨_, down.symm⟩⟩

end Path

end Peerscale.Pbtunnel
