import Peerscale.Pbtunnel.Forwarding

/-! # When the path delivers everything

If the ends keep to the order that the handlers expect, then everything is delivered
whatever the order of the moves. If one of them does not, then there are moves after which
something will never arrive.
-/

namespace Peerscale.Pbtunnel

open List Stage

variable {src : Channel}

theorem Stage.Blocked.empty (blocked : Blocked stage src) (staying : ¬stage.Gone) :
    stage.pending = [] ∧ src.buffer = [] := by
  rcases blocked with rfl | ⟨rfl, idle⟩
  · exact absurd trivial staying
  · exact ⟨rfl, idle.1⟩

theorem Lane.Conserves.received_eq (conserves : Conserves lane) (out : lane.out.buffer = [])
    (leave : lane.leave.pending = []) (passed : lane.Passed) : lane.received = lane.sent := by
  rcases passed with ⟨into, enter, between⟩
  rw [Conserves, out, leave, between, enter, into] at conserves
  rw [conserves]
  simp only [append_nil]

namespace Path

variable {path : Path}

theorem Sound.delivered_of_open (sound : path.Sound) (blocked : path.Blocked)
    (unclosed : path.up.closed ≠ true) : path.Delivered := by
  have exited : ¬path.up.enter.Exited := fun exited => unclosed (sound.closed_of_exited exited)
  have enterUp := blocked.up.enter.empty fun gone => unclosed (sound.enterUp gone).1
  have leaveUp := blocked.up.leave.empty fun gone => exited (sound.exited_of_leaveUp gone)
  have enterDown := blocked.down.enter.empty fun gone => unclosed (sound.enterDown gone)
  have leaveDown := blocked.down.leave.empty fun gone => exited (sound.leaveDown gone)
  exact
    { up := ⟨sound.upConserves.received_eq blocked.up.empty leaveUp.1
        ⟨enterUp.2, enterUp.1, leaveUp.2⟩, fun closed => absurd closed unclosed⟩
      down := ⟨sound.downConserves.received_eq blocked.down.empty leaveDown.1
        ⟨enterDown.2, enterDown.1, leaveDown.2⟩,
        fun closed => absurd (sound.closes closed) unclosed⟩ }

theorem Sound.delivered_of_closed (sound : path.Sound) (blocked : path.Blocked)
    (closed : path.up.closed) : path.Delivered := by
  -- The end of what the client sends makes the goroutines end one after the other.
  have enterUp : path.up.enter = .done := by
    rcases blocked.up.enter with done | ⟨-, -, notEnded, -⟩
    · exact done
    · rw [sound.upEnded, closed] at notEnded
      cases notEnded
  rcases sound.enterUpDone enterUp with ⟨ended, dropped⟩
  have leaveUp : path.up.leave = .done := by
    rcases blocked.up.leave with done | ⟨-, -, notEnded, -⟩
    · exact done
    · rw [ended] at notEnded
      cases notEnded
  have leaveDown : path.down.leave = .done := by
    rcases blocked.down.leave with done | ⟨-, -, -, notDropped⟩
    · exact done
    · rw [dropped] at notDropped
      cases notDropped
  have passed : path.up.Passed := by
    refine ⟨(sound.enterUp ?_).2, ?_, (sound.leaveUp ?_).2⟩
    · rw [enterUp]
      trivial
    · rw [enterUp]
      rfl
    · rw [leaveUp]
      trivial
  exact
    { up := ⟨sound.upConserves.received_eq blocked.up.empty (by rw [leaveUp]; rfl) passed,
        fun _ => blocked.up.seen (sound.leaveUpDone leaveUp).1⟩
      down := ⟨sound.downConserves.received_eq blocked.down.empty (by rw [leaveDown]; rfl)
        (sound.passed closed), fun _ => blocked.down.seen (sound.leaveDownDone leaveDown)⟩ }

theorem Sound.inevitable (sound : path.Sound) : Inevitable Moves Delivered path := by
  refine inevitable_of_measure potential ?_ ?_ ?_ sound
  · rintro path next sound ⟨-, move, rfl⟩
    exact sound.move move
  · intro path next moves
    exact moves.potential_lt
  intro path sound stuck
  have blocked := blocked_iff.mpr stuck
  by_cases closed : path.up.closed
  · exact sound.delivered_of_closed blocked closed
  · exact sound.delivered_of_open blocked closed

/-! ## The target closes first -/

structure Withheld (path : Path) : Prop where
  enterUp : ¬path.up.enter.Gone
  leaveUp : ¬path.up.leave.Gone
  leaveDown : ¬path.down.leave.Gone
  upInto : path.up.into.ended = false ∧ path.up.into.dropped = false
  upBetween : path.up.between.ended = false ∧ path.up.between.dropped = false
  upOut : path.up.out.ended = false ∧ path.up.out.dropped = false
  downBetween : path.down.between.ended = false ∧ path.down.between.dropped = false
  downOut : path.down.out.ended = false ∧ path.down.out.dropped = false
  p2x : path.handleP2x = .waiting
  tunnel : path.handleTunnel = .waiting
  closed : path.down.closed
  unseen : path.down.sawEnd = false

end Path

variable {pre : Stage} {halfCloses : Bool} {res : Stage × Channel × Channel} {sink : Channel}

theorem Stage.copying_of_not_gone {stage : Stage} (staying : ¬stage.Gone) : stage.Copying := by
  constructor
  · rintro rfl
    exact staying trivial
  · rintro half rfl
    exact staying trivial

theorem Transfer.staying (tr : Transfer halfCloses src sink pre res)
    (staying : ¬pre.Gone) (isOpen : src.ended = false ∧ src.dropped = false) : ¬res.1.Gone := by
  intro gone
  rcases tr.gone gone with ⟨prev, -⟩ | dropped | ⟨ended, -⟩
  · exact staying prev
  · rw [isOpen.2] at dropped
    cases dropped
  · rw [isOpen.1] at ended
    cases ended

namespace Path

theorem Withheld.move (withheld : Withheld path) (move : Move) : (path.move move).Withheld := by
  cases move with
  | enterUp amt flag =>
    have copying := copying_of_not_gone withheld.enterUp
    have tr := (copied_copy true path.up.into path.up.between path.up.enter amt
      flag).transfer copying fun _ => withheld.upBetween
    rw [Path.move, Path.enterUp]
    split
    · exact absurd ‹_› (copying.2 _)
    · exact absurd ‹_› (copying.2 _)
    exact
      { withheld with
        enterUp := tr.staying withheld.enterUp withheld.upInto
        upInto := ⟨tr.sourceEnded.trans withheld.upInto.1, tr.sourceDropped.trans withheld.upInto.2⟩
        upBetween := ⟨tr.sinkEnded.trans withheld.upBetween.1,
          tr.sinkDropped.trans withheld.upBetween.2⟩ }
  | leaveUp amt flag =>
    have copying := copying_of_not_gone withheld.leaveUp
    have tr := (copied_copy false path.up.between path.up.out path.up.leave amt
      flag).transfer copying fun _ => withheld.upOut
    rw [Path.move, Path.leaveUp]
    split
    · exact absurd ‹_› (copying.2 _)
    exact
      { withheld with
        leaveUp := tr.staying withheld.leaveUp withheld.upBetween
        upBetween := ⟨tr.sourceEnded.trans withheld.upBetween.1,
          tr.sourceDropped.trans withheld.upBetween.2⟩
        upOut := ⟨tr.sinkEnded.trans withheld.upOut.1, tr.sinkDropped.trans withheld.upOut.2⟩ }
  | enterDown amt flag =>
    rw [Path.move, Path.enterDown]
    split
    · exact { withheld with }
    rename_i notReturning
    by_cases done : path.down.enter = .done
    · rw [Lane.copyIn_of_done done]
      exact withheld
    have tr := (copied_copy false path.down.into path.down.between path.down.enter
      amt flag).transfer ⟨done, notReturning⟩ fun _ => withheld.downBetween
    exact
      { withheld with
        downBetween := ⟨tr.sinkEnded.trans withheld.downBetween.1,
          tr.sinkDropped.trans withheld.downBetween.2⟩ }
  | leaveDown amt flag =>
    have copying := copying_of_not_gone withheld.leaveDown
    have tr := (copied_copy false path.down.between path.down.out path.down.leave amt
      flag).transfer copying fun _ => withheld.downOut
    rw [Path.move, Path.leaveDown]
    split
    · exact absurd ‹_› (copying.2 _)
    exact
      { withheld with
        leaveDown := tr.staying withheld.leaveDown withheld.downBetween
        downBetween := ⟨tr.sourceEnded.trans withheld.downBetween.1,
          tr.sourceDropped.trans withheld.downBetween.2⟩
        downOut := ⟨tr.sinkEnded.trans withheld.downOut.1,
          tr.sinkDropped.trans withheld.downOut.2⟩ }
  | handleP2x =>
    have running := (copying_of_not_gone withheld.enterUp).1
    rw [Path.move, Path.stepP2x, withheld.p2x]
    rw [if_neg fun both => running both.1]
    exact withheld
  | handleTunnel =>
    have running := (copying_of_not_gone withheld.leaveUp).1
    rw [Path.move, Path.stepTunnel, withheld.tunnel]
    rw [if_neg fun both => running both.2]
    exact withheld
  | targetReads amt =>
    rcases path.up.receive_spec amt with ⟨received, buf, sawEnd, same, -⟩
    rw [Path.move, same]
    exact { withheld with }
  | clientReads amt =>
    rcases path.down.receive_spec amt with ⟨received, buf, sawEnd, same, -, seen⟩
    rw [Path.move, same]
    refine { withheld with unseen := Bool.eq_false_iff.mpr ?_ }
    intro saw
    rcases seen saw with prev | ended
    · rw [withheld.unseen] at prev
      cases prev
    · rw [withheld.downOut.1] at ended
      cases ended

theorem Withheld.not_inevitable (withheld : Withheld path) : ¬Inevitable Moves Delivered path := by
  refine Peerscale.not_inevitable ?_ ?_ withheld
  · rintro path next withheld ⟨-, move, rfl⟩
    exact withheld.move move
  intro path withheld delivered
  have saw := delivered.down.2 withheld.closed
  rw [withheld.unseen] at saw
  cases saw

theorem Sound.withheld (sound : Sound path) (unclosed : path.up.closed = false) :
    Withheld { path with down := path.down.close } := by
  have notClosed : path.up.closed ≠ true := by
    rw [unclosed]
    decide
  have exited : ¬path.up.enter.Exited := fun exited => notClosed (sound.closed_of_exited exited)
  have leaveUp : path.up.leave ≠ .done := fun done => notClosed (sound.closed_of_leaveUp_done done)
  have enterUp : path.up.enter ≠ .done := by
    intro done
    rw [done] at exited
    exact exited trivial
  have leaveDown : path.down.leave ≠ .done := by
    intro done
    apply exited (sound.leaveDown _)
    rw [done]
    trivial
  exact
    { enterUp := fun gone => notClosed (sound.enterUp gone).1
      leaveUp := fun gone => exited (sound.exited_of_leaveUp gone)
      leaveDown := fun gone => exited (sound.leaveDown gone)
      upInto := ⟨sound.upEnded.trans unclosed,
        Bool.eq_false_iff.mpr fun dropped => leaveDown (sound.upIntoDropped dropped)⟩
      upBetween := ⟨Bool.eq_false_iff.mpr fun ended => exited (sound.upBetweenEnded ended),
        Bool.eq_false_iff.mpr fun dropped => leaveUp (sound.upBetweenDropped dropped)⟩
      upOut := ⟨Bool.eq_false_iff.mpr fun ended => leaveUp (sound.upOutEnded ended), sound.upOut⟩
      downBetween := ⟨Bool.eq_false_iff.mpr fun ended => leaveUp (sound.downBetweenEnded ended),
        Bool.eq_false_iff.mpr fun dropped => enterUp (sound.downBetweenDropped dropped)⟩
      downOut := ⟨Bool.eq_false_iff.mpr fun ended => leaveDown (sound.downOutEnded ended),
        sound.downOut⟩
      p2x := by
        by_contra started
        exact enterUp (sound.p2x started).1
      tunnel := by
        by_contra started
        exact leaveUp (sound.tunnel started).2
      closed := rfl
      unseen := Bool.eq_false_iff.mpr fun saw =>
        leaveDown (sound.downOutEnded (sound.clientSaw saw)) }

end Path

/-! ## The client closes first -/

section

variable (copied : Copied halfCloses src sink pre res)

include copied

theorem Copied.flags : res.2.1.ended = src.ended ∧ res.2.2.dropped = sink.dropped := by
  cases copied with
  | writes part more split =>
    refine ⟨rfl, ?_⟩
    rw [Channel.write]
    split <;> rfl
  | waits | fails | reads | refused | returning | done => exact ⟨rfl, rfl⟩

theorem Copied.ne_done (notDone : pre ≠ .done) : res.1 ≠ .done := by
  cases copied with
  | writes => exact after_ne_done _ _ _
  | waits | fails | reads | refused | returning => nofun
  | done => exact notDone

theorem Copied.length_le (dropped : src.dropped) :
    res.2.1 = src ∧ res.2.2.buffer.length + res.1.pending.length ≤
      sink.buffer.length + pre.pending.length := by
  cases copied with
  | waits | fails | returning | done => exact ⟨rfl, Nat.le_refl _⟩
  | reads x rest left failed content isOpen =>
    rw [dropped] at isOpen
    cases isOpen
  | refused => exact ⟨rfl, Nat.le_add_right _ _⟩
  | @writes x rest failed part more split =>
    refine ⟨rfl, ?_⟩
    have written := length_write_le sink part
    have pre : (writing x rest failed).pending = part ++ more := split
    dsimp only
    rw [(cost_after halfCloses failed more).1, pre, length_append]
    omega

end

def Lane.arriving (lane : Lane) : Nat :=
  lane.received.length + (lane.out.buffer.length + lane.leave.pending.length)

theorem Lane.arriving_receive (lane : Lane) (amt : Nat) :
    (lane.receive amt).arriving = lane.arriving := by
  rcases lane.receive_spec amt with ⟨received, buf, sawEnd, same, conserved, -⟩
  have lengths := congrArg length conserved
  rw [length_append, length_append] at lengths
  rw [same, arriving, arriving, ← Nat.add_assoc, ← Nat.add_assoc, lengths]

namespace Path

variable {path : Path}

structure Lost (path : Path) : Prop where
  dropped : path.down.between.dropped
  short : path.down.arriving < path.down.sent.length

theorem Lost.move (lost : path.Lost) (move : Move) : (path.move move).Lost := by
  cases move with
  | enterUp =>
    rw [Path.move, Path.enterUp]
    split
    · exact ⟨lost.dropped, lost.short⟩
    · exact ⟨rfl, lost.short⟩
    · exact ⟨lost.dropped, lost.short⟩
  | leaveUp =>
    rw [Path.move, Path.leaveUp]
    split <;> exact ⟨lost.dropped, lost.short⟩
  | enterDown amt flag =>
    have copied := copied_copy false path.down.into path.down.between path.down.enter amt flag
    rw [Path.move, Path.enterDown]
    split
    · exact ⟨lost.dropped, lost.short⟩
    · exact ⟨copied.flags.2.trans lost.dropped, lost.short⟩
  | leaveDown amt flag =>
    have copied := copied_copy false path.down.between path.down.out path.down.leave amt flag
    have short := lost.short
    rw [Lane.arriving] at short
    rw [Path.move, Path.leaveDown]
    split
    · refine ⟨lost.dropped, ?_⟩
      show path.down.received.length + (path.down.out.buffer.length + 0) < _
      exact Nat.lt_of_le_of_lt (by omega) short
    rcases copied.length_le lost.dropped with ⟨same, less⟩
    refine ⟨(congrArg Channel.dropped same).trans lost.dropped, ?_⟩
    exact Nat.lt_of_le_of_lt (Nat.add_le_add_left less _) short
  | handleP2x =>
    rw [Path.move, Path.stepP2x]
    split
    · split
      · exact ⟨rfl, lost.short⟩
      · exact lost
    · exact ⟨lost.dropped, lost.short⟩
    · exact lost
  | handleTunnel =>
    rw [Path.move, Path.stepTunnel]
    split
    · split
      · exact ⟨lost.dropped, lost.short⟩
      · exact lost
    · exact ⟨lost.dropped, lost.short⟩
    · exact lost
  | targetReads => exact ⟨lost.dropped, lost.short⟩
  | clientReads amt =>
    have arriving := path.down.arriving_receive amt
    rcases path.down.receive_spec amt with ⟨received, buf, sawEnd, same, -⟩
    rw [same] at arriving
    rw [Path.move, same]
    refine ⟨lost.dropped, ?_⟩
    rw [arriving]
    exact lost.short

theorem not_delivered_of_short (short : path.down.arriving < path.down.sent.length) :
    ¬path.Delivered := by
  intro delivered
  rw [← delivered.down.1, Lane.arriving] at short
  omega

theorem Lost.not_inevitable (lost : path.Lost) : ¬Inevitable Moves Delivered path := by
  refine Peerscale.not_inevitable ?_ ?_ lost
  · rintro path next lost ⟨-, move, rfl⟩
    exact lost.move move
  · intro path lost
    exact not_delivered_of_short lost.short

/-- `handleP2x` is going to close the stream before everything has been read from it, if its
goroutine for the client is faster than the others. -/
structure Endangered (path : Path) : Prop where
  ended : path.up.into.ended
  dropped : path.up.enter = .done → path.down.between.dropped
  short : path.down.arriving < path.down.sent.length

theorem Endangered.enterUp (endangered : path.Endangered) (running : path.up.enter ≠ .done) :
    path.Moves (path.enterUp 1 true) ∧ (path.enterUp 1 true).Endangered := by
  have ne : path.enterUp 1 true ≠ path := by
    intro same
    rcases blocked_enterUp same with done | ⟨-, -, notEnded, -⟩
    · exact running done
    · rw [endangered.ended] at notEnded
      cases notEnded
  refine ⟨⟨ne, .enterUp 1 true, rfl⟩, ?_⟩
  have copied := copied_copy true path.up.into path.up.between path.up.enter 1 true
  rw [Path.enterUp]
  split
  · refine ⟨endangered.ended, ?_, endangered.short⟩
    intro done
    cases done
  · exact ⟨endangered.ended, fun _ => rfl, endangered.short⟩
  · exact ⟨copied.flags.1.trans endangered.ended,
      fun done => absurd done (copied.ne_done running), endangered.short⟩

theorem Endangered.not_inevitable (endangered : path.Endangered) :
    ¬Inevitable Moves Delivered path := by
  generalize bound : path.potential = size
  induction size using Nat.strongRecOn generalizing path with
  | ind size ih =>
    by_cases done : path.up.enter = .done
    · exact Lost.not_inevitable ⟨endangered.dropped done, endangered.short⟩
    rcases endangered.enterUp done with ⟨moves, next⟩
    have smaller := moves.potential_lt
    rw [bound] at smaller
    intro inevitable
    exact ih _ smaller next rfl (inevitable.of_step (not_delivered_of_short endangered.short) moves)

theorem Sound.arriving_le (sound : path.Sound) :
    path.down.arriving + (path.down.between.buffer.length +
      (path.down.enter.pending.length + path.down.into.buffer.length)) =
        path.down.sent.length := by
  have lengths := congrArg length sound.downConserves
  simp only [length_append] at lengths
  rw [Lane.arriving, lengths]
  omega

theorem Sound.endangered_clientCloses (sound : path.Sound) (notPassed : ¬path.down.Passed) :
    Endangered { path with up := path.up.close } := by
  refine ⟨rfl, fun done => (sound.enterUpDone done).2, ?_⟩
  have total := sound.arriving_le
  show path.down.arriving < path.down.sent.length
  by_contra enough
  apply notPassed
  refine ⟨length_eq_zero_iff.mp ?_, length_eq_zero_iff.mp ?_, length_eq_zero_iff.mp ?_⟩ <;> omega

theorem Sound.endangered_targetSends (sound : path.Sound) (closed : path.up.closed)
    (unclosed : path.down.closed ≠ true) (some : bytes ≠ []) :
    Endangered { path with down := path.down.send bytes } := by
  rw [Lane.send, if_neg unclosed]
  refine ⟨sound.upEnded.trans closed, fun done => (sound.enterUpDone done).2, ?_⟩
  have total := sound.arriving_le
  have pos := length_pos_iff.mpr some
  show path.down.arriving < (path.down.sent ++ bytes).length
  rw [length_append]
  omega

theorem Sound.not_inevitable (sound : path.Sound) (disorderly : ¬path.Orderly a) :
    ¬Inevitable Moves Delivered (path.act a) := by
  cases a with
  | clientSends | moves => exact absurd trivial disorderly
  | clientCloses => exact (sound.endangered_clientCloses disorderly).not_inevitable
  | targetSends =>
    rw [Orderly, Classical.not_imp, not_or] at disorderly
    rcases disorderly with ⟨closed, unclosed, some⟩
    exact (sound.endangered_targetSends closed unclosed some).not_inevitable
  | targetCloses => exact (sound.withheld (Bool.eq_false_iff.mpr disorderly)).not_inevitable

/-- All along a run, everything is going to be delivered whatever moves first, exactly if
the client closes its sending side only when everything that the target has sent is past
the stream, and the target closes its sending side after that and sends nothing then. -/
theorem delivers_iff (actions : List Action) :
    machine.Always (Inevitable Moves Delivered) start actions ↔
      machine.Obeys Orderly start actions :=
  Machine.always_iff_obeys_of_invariant (fun _ _ sound orderly => sound.act orderly)
    (fun _ sound => sound.inevitable) (fun _ _ sound disorderly => sound.not_inevitable disorderly)
    sound_start actions

/-- The client sends a request and closes its sending side. The target answers when it has
the request, and the answer is in the stream when `handleP2x` closes that. -/
def lostAnswer : List Action :=
  [.clientSends (ascii "GET"), .clientCloses, .moves (.enterUp 3 false), .moves (.enterUp 3 false),
    .moves (.leaveUp 3 false), .moves (.leaveUp 3 false), .moves (.targetReads 3),
    .targetSends (ascii "200 OK"), .moves (.enterDown 6 false), .moves (.enterDown 6 false),
    .moves (.enterUp 1 false), .moves (.enterUp 1 false), .moves (.enterUp 1 false),
    .targetCloses,
    .moves (.leaveDown 1 false), .moves (.leaveDown 1 false), .moves (.clientReads 1),
    .moves (.leaveUp 1 false), .moves (.leaveUp 1 false), .moves (.targetReads 1),
    .moves (.enterDown 1 false), .moves (.enterDown 1 false),
    .moves .handleP2x, .moves .handleP2x, .moves .handleTunnel, .moves .handleTunnel]

def unseenEnd : List Action :=
  [.targetSends (ascii "220 ready"), .targetCloses,
    .moves (.enterDown 9 false), .moves (.enterDown 9 false),
    .moves (.leaveDown 9 false), .moves (.leaveDown 9 false), .moves (.clientReads 9),
    .moves (.enterDown 1 false), .moves (.enterDown 1 false)]

/-- Nothing moves any more: the client has seen the end and not the answer, or has all the
bytes and waits for the end. -/
theorem lostAnswer_unseenEnd :
    ((machine.run start lostAnswer).Blocked ∧
      (machine.run start lostAnswer).down.sent = ascii "200 OK" ∧
      (machine.run start lostAnswer).down.received = [] ∧
      (machine.run start lostAnswer).down.sawEnd = true) ∧
    ((machine.run start unseenEnd).Blocked ∧ (machine.run start unseenEnd).down.closed = true ∧
      (machine.run start unseenEnd).down.received = ascii "220 ready" ∧
      (machine.run start unseenEnd).down.sawEnd = false) := by
  decide +kernel

end Path

end Peerscale.Pbtunnel
