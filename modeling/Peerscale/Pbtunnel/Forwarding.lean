import Peerscale.Pbtunnel.Progress

/-! # What the path delivers

As long as the client has not closed its sending side, no goroutine ends. When it has,
`handleP2x` closes the stream, in both directions: nothing that the target has sent and that
is not yet past the stream will arrive, but everything that the client has sent will. The
end of what the target sends is passed on only then.
-/

namespace Peerscale.Pbtunnel

open List Stage

def Stage.Gone : Stage → Prop
  | .reading => False
  | .writing _ _ failed => failed
  | .returning _ => True
  | .done => True

def Stage.Exited : Stage → Prop
  | .returning half => half = false
  | .done => True
  | _ => False

def Stage.Copying (stage : Stage) : Prop :=
  stage ≠ .done ∧ ∀ half, stage ≠ .returning half

theorem Stage.Exited.gone (exited : Exited stage) : stage.Gone := by
  cases stage with
  | reading | writing => cases exited
  | returning | done => trivial

theorem Stage.Copying.not_exited (copying : Copying stage) : ¬stage.Exited := by
  intro exited
  cases stage with
  | reading | writing => cases exited
  | returning half => exact copying.2 half rfl
  | done => exact copying.1 rfl

structure Transfer (halfCloses : Bool) (source sink : Channel) (before : Stage)
    (result : Stage × Channel × Channel) : Prop where
  conserves : result.2.2.buffer ++ (result.1.pending ++ result.2.1.buffer) =
    sink.buffer ++ (before.pending ++ source.buffer)
  sourceEnded : result.2.1.ended = source.ended
  sourceDropped : result.2.1.dropped = source.dropped
  sinkEnded : result.2.2.ended = sink.ended
  sinkDropped : result.2.2.dropped = sink.dropped
  gone : result.1.Gone → before.Gone ∧ result.2.1 = source ∨ source.dropped ∨
    source.ended ∧ result.2.1.buffer = []
  notDone : result.1 ≠ .done
  halfCloses : halfCloses → ¬result.1.Exited
  idle : before.pending = [] → result.2.2 = sink
  empty : source.buffer = [] → result.2.1.buffer = [] ∧
    (before.pending = [] → result.1.pending = [])

theorem Stage.gone_after (gone : (after halfCloses failed bytes).Gone) : failed := by
  cases bytes with
  | nil =>
    cases failed with
    | true => rfl
    | false => cases gone
  | cons => exact gone

theorem Stage.after_ne_done (halfCloses failed : Bool) (bytes : Bytes) :
    after halfCloses failed bytes ≠ .done := by
  cases bytes <;> cases failed <;> nofun

theorem Stage.not_exited_after (failed : Bool) (bytes : Bytes) :
    ¬(after true failed bytes).Exited := by
  cases bytes <;> cases failed <;> nofun

theorem Copied.transfer (copied : Copied halfCloses src sink pre res) (copying : pre.Copying)
    (isOpen : pre.pending ≠ [] → sink.ended = false ∧ sink.dropped = false) :
    Transfer halfCloses src sink pre res := by
  cases copied with
  | waits =>
    refine ⟨rfl, rfl, rfl, rfl, rfl, False.elim, ?_, fun _ => id, fun _ => rfl,
      fun empty => ⟨empty, id⟩⟩
    intro done
    cases done
  | fails shut =>
    refine ⟨rfl, rfl, rfl, rfl, rfl, fun _ => .inr shut, ?_, ?_, fun _ => rfl,
      fun empty => ⟨empty, id⟩⟩
    · intro done
      cases done
    · rintro rfl exited
      cases exited
  | reads first rest left failed content sourceOpen last =>
    refine ⟨?_, rfl, rfl, rfl, rfl, fun gone => .inr (.inr (last gone)), ?_,
      fun _ => id, fun _ => rfl, ?_⟩
    · rw [content]
      rfl
    · intro done
      cases done
    intro empty
    rw [content] at empty
    cases empty
  | refused shut =>
    rcases isOpen (cons_ne_nil _ _) with ⟨notEnded, notDropped⟩
    rw [notEnded, notDropped] at shut
    rcases shut with ended | dropped
    · cases ended
    · cases dropped
  | @writes first rest failed part more split =>
    have notDropped := (isOpen (cons_ne_nil _ _)).2
    have written : sink.write part = { sink with buffer := sink.buffer ++ part } := by
      rw [Channel.write, notDropped, if_neg (by decide)]
    have pending := (cost_after halfCloses failed more).1
    rw [written]
    refine ⟨?_, rfl, rfl, rfl, rfl, fun gone => .inl ⟨gone_after gone, rfl⟩,
      after_ne_done _ _ _, ?_, fun nothing => absurd nothing (cons_ne_nil _ _),
      fun empty => ⟨empty, fun nothing => absurd nothing (cons_ne_nil _ _)⟩⟩
    · show sink.buffer ++ part ++ (_ ++ src.buffer) = sink.buffer ++ (first :: rest ++ _)
      rw [pending, split, append_assoc, append_assoc]
    · rintro rfl
      exact not_exited_after failed more
  | returning half => exact absurd rfl (copying.2 half)
  | done => exact absurd rfl copying.1

namespace Lane

def Conserves (lane : Lane) : Prop :=
  lane.sent = lane.received ++ (lane.out.buffer ++ (lane.leave.pending ++
    (lane.between.buffer ++ (lane.enter.pending ++ lane.into.buffer))))

def Passed (lane : Lane) : Prop :=
  lane.into.buffer = [] ∧ lane.enter.pending = [] ∧ lane.between.buffer = []
  deriving Decidable

theorem receive_spec (lane : Lane) (amt : Nat) :
    ∃ received buf sawEnd, lane.receive amt =
          { lane with
            received := received
            out := { lane.out with buffer := buf }
            sawEnd := sawEnd } ∧
        received ++ buf = lane.received ++ lane.out.buffer ∧
        (sawEnd → lane.sawEnd ∨ lane.out.ended) := by
  rw [receive]
  split
  · rename_i empty
    split
    · rename_i ended
      refine ⟨lane.received, lane.out.buffer, true, rfl, rfl, fun _ => .inr ended⟩
    · exact ⟨lane.received, lane.out.buffer, lane.sawEnd, rfl, rfl, .inl⟩
  rename_i first rest content
  refine ⟨_, _, lane.sawEnd, rfl, ?_, .inl⟩
  rw [content, append_assoc, take_append_drop]

namespace Conserves

variable {lane : Lane} (conserves : lane.Conserves)

include conserves

theorem copyIn (tr : Transfer halfCloses lane.into lane.between lane.enter (stage, src, sink)) :
    Conserves { lane with enter := stage, into := src, between := sink } := by
  rw [Conserves] at conserves ⊢
  rw [conserves, tr.conserves]

theorem copyOut (tr : Transfer halfCloses lane.between lane.out lane.leave (stage, src, sink)) :
    Conserves { lane with leave := stage, between := src, out := sink } := by
  have moved := tr.conserves
  rw [Conserves] at conserves ⊢
  rw [conserves]
  simp only [← append_assoc] at moved ⊢
  rw [append_assoc lane.received, append_assoc lane.received, ← moved]
  simp only [append_assoc]

theorem receive (amt : Nat) : (lane.receive amt).Conserves := by
  rcases lane.receive_spec amt with ⟨received, buf, sawEnd, same, conserved, -⟩
  rw [Conserves, ← append_assoc, ← conserved, append_assoc] at conserves
  rw [same]
  exact conserves

theorem send {bytes : Bytes}
    (written : (lane.into.write bytes).buffer = lane.into.buffer ++ bytes) :
    Conserves { lane with sent := lane.sent ++ bytes, into := lane.into.write bytes } := by
  rw [Conserves] at conserves ⊢
  rw [conserves, written]
  simp only [append_assoc]

theorem enterReturns (returning : lane.enter = .returning half) (next : Stage)
    (nothing : next.pending = []) : Conserves { lane with enter := next } := by
  rw [Conserves, returning] at conserves
  rw [Conserves, nothing]
  exact conserves

theorem leaveReturns (returning : lane.leave = .returning half) :
    Conserves { lane with leave := .done } := by
  rw [Conserves, returning] at conserves
  exact conserves

end Conserves

theorem copyIn_of_done {lane : Lane} (done : lane.enter = .done) (halfCloses : Bool)
    (amt : Nat) (flag : Bool) : lane.copyIn halfCloses amt flag = lane := by
  rw [copyIn, Stage.Blocked.copy_eq (.inl done)]

theorem copyOut_of_done {lane : Lane} (done : lane.leave = .done) (amt : Nat) (flag : Bool) :
    lane.copyOut amt flag = lane := by
  rw [copyOut, Stage.Blocked.copy_eq (.inl done)]

end Lane

namespace Path

/-- The client closes first. Then the goroutines end one after the other, each of them when
everything before it has come to an end. -/
structure Sound (path : Path) : Prop where
  upConserves : path.up.Conserves
  downConserves : path.down.Conserves
  upEnded : path.up.into.ended = path.up.closed
  downEnded : path.down.into.ended = path.down.closed
  enterUp : path.up.enter.Gone → path.up.closed ∧ path.up.into.buffer = []
  upBetweenEnded : path.up.between.ended → path.up.enter.Exited
  enterUpDone : path.up.enter = .done →
    path.up.between.ended ∧ path.down.between.dropped
  downBetweenDropped : path.down.between.dropped → path.up.enter = .done
  leaveUp : path.up.leave.Gone → path.up.between.ended ∧ path.up.between.buffer = []
  leaveUpDone : path.up.leave = .done →
    path.up.out.ended ∧ path.down.into.dropped
  upOutEnded : path.up.out.ended → path.up.leave = .done
  downIntoDropped : path.down.into.dropped → path.up.leave = .done
  enterDown : path.down.enter.Gone → path.up.closed
  upBetweenDropped : path.up.between.dropped → path.up.leave = .done
  downBetweenEnded : path.down.between.ended → path.up.leave = .done
  leaveDown : path.down.leave.Gone → path.up.enter.Exited
  upIntoDropped : path.up.into.dropped → path.down.leave = .done
  leaveDownDone : path.down.leave = .done → path.down.out.ended
  downOutEnded : path.down.out.ended → path.down.leave = .done
  passed : path.up.closed → path.down.Passed
  closes : path.down.closed → path.up.closed
  upOut : path.up.out.dropped = false
  downOut : path.down.out.dropped = false
  p2x : path.handleP2x ≠ .waiting → path.up.enter = .done ∧ path.down.leave = .done
  tunnel : path.handleTunnel ≠ .waiting → path.down.enter = .done ∧ path.up.leave = .done
  clientSaw : path.down.sawEnd → path.down.out.ended

theorem sound_start : start.Sound := by
  constructor <;> first | rfl | nofun

namespace Sound

variable {path : Path} (sound : path.Sound)

include sound

theorem closed_of_exited (exited : path.up.enter.Exited) : path.up.closed :=
  (sound.enterUp exited.gone).1

theorem exited_of_leaveUp (gone : path.up.leave.Gone) : path.up.enter.Exited :=
  sound.upBetweenEnded (sound.leaveUp gone).1

theorem exited_of_leaveUp_done (done : path.up.leave = .done) : path.up.enter.Exited := by
  apply sound.exited_of_leaveUp
  rw [done]
  trivial

theorem closed_of_leaveUp_done (done : path.up.leave = .done) : path.up.closed :=
  sound.closed_of_exited (sound.exited_of_leaveUp_done done)

theorem copyInUp (copying : path.up.enter.Copying)
    (tr : Transfer true path.up.into path.up.between path.up.enter (stage, src, sink)) :
    Sound { path with up := { path.up with enter := stage, into := src, between := sink } } := by
  have notExited := copying.not_exited
  have staying : ¬path.up.leave.Gone := fun gone => notExited (sound.exited_of_leaveUp gone)
  have isOpen : path.up.into.dropped ≠ true := by
    intro dropped
    apply notExited (sound.leaveDown _)
    rw [sound.upIntoDropped dropped]
    trivial
  exact
    { sound with
      upConserves := sound.upConserves.copyIn tr
      upEnded := tr.sourceEnded.trans sound.upEnded
      enterUp := by
        intro gone
        rcases tr.gone gone with ⟨prev, same⟩ | dropped | ⟨ended, empty⟩
        · have same : src = path.up.into := same
          rw [same]
          exact sound.enterUp prev
        · exact absurd dropped isOpen
        · exact ⟨sound.upEnded.symm.trans ended, empty⟩
      upBetweenEnded := fun ended =>
        absurd (sound.upBetweenEnded (tr.sinkEnded.symm.trans ended)) notExited
      enterUpDone := fun done => absurd done tr.notDone
      downBetweenDropped := fun dropped => absurd (sound.downBetweenDropped dropped) copying.1
      leaveUp := fun gone => absurd gone staying
      upBetweenDropped := fun dropped => sound.upBetweenDropped (tr.sinkDropped.symm.trans dropped)
      leaveDown := fun gone => absurd (sound.leaveDown gone) notExited
      upIntoDropped := fun dropped => sound.upIntoDropped (tr.sourceDropped.symm.trans dropped)
      p2x := fun started => absurd (sound.p2x started).1 copying.1 }

theorem copyOutUp (copying : path.up.leave.Copying)
    (tr : Transfer false path.up.between path.up.out path.up.leave (stage, src, sink)) :
    Sound { path with up := { path.up with leave := stage, between := src, out := sink } } :=
  { sound with
    upConserves := sound.upConserves.copyOut tr
    upBetweenEnded := fun ended => sound.upBetweenEnded (tr.sourceEnded.symm.trans ended)
    enterUpDone := fun done =>
      ⟨tr.sourceEnded.trans (sound.enterUpDone done).1, (sound.enterUpDone done).2⟩
    leaveUp := by
      intro gone
      rcases tr.gone gone with ⟨prev, same⟩ | dropped | ⟨ended, empty⟩
      · have same : src = path.up.between := same
        rw [same]
        exact sound.leaveUp prev
      · exact absurd (sound.upBetweenDropped dropped) copying.1
      · exact ⟨tr.sourceEnded.trans ended, empty⟩
    leaveUpDone := fun done => absurd done tr.notDone
    upOutEnded := fun ended => absurd (sound.upOutEnded (tr.sinkEnded.symm.trans ended)) copying.1
    downIntoDropped := fun dropped => absurd (sound.downIntoDropped dropped) copying.1
    upBetweenDropped := fun dropped =>
      absurd (sound.upBetweenDropped (tr.sourceDropped.symm.trans dropped)) copying.1
    downBetweenEnded := fun ended => absurd (sound.downBetweenEnded ended) copying.1
    upOut := tr.sinkDropped.trans sound.upOut
    tunnel := fun started => absurd (sound.tunnel started).2 copying.1 }

theorem copyInDown (copying : path.down.enter.Copying)
    (tr : Transfer false path.down.into path.down.between path.down.enter (stage, src, sink)) :
    Sound { path with
      down := { path.down with enter := stage, into := src, between := sink } } :=
  { sound with
    downConserves := sound.downConserves.copyIn tr
    downEnded := tr.sourceEnded.trans sound.downEnded
    enterUpDone := fun done =>
      ⟨(sound.enterUpDone done).1, tr.sinkDropped.trans (sound.enterUpDone done).2⟩
    downBetweenDropped := fun dropped =>
      sound.downBetweenDropped (tr.sinkDropped.symm.trans dropped)
    leaveUpDone := fun done =>
      ⟨(sound.leaveUpDone done).1, tr.sourceDropped.trans (sound.leaveUpDone done).2⟩
    downIntoDropped := fun dropped => sound.downIntoDropped (tr.sourceDropped.symm.trans dropped)
    enterDown := by
      intro gone
      rcases tr.gone gone with ⟨prev, -⟩ | dropped | ⟨ended, -⟩
      · exact sound.enterDown prev
      · exact sound.closed_of_leaveUp_done (sound.downIntoDropped dropped)
      · exact sound.closes (sound.downEnded.symm.trans ended)
    downBetweenEnded := fun ended => sound.downBetweenEnded (tr.sinkEnded.symm.trans ended)
    passed := by
      intro closed
      rcases sound.passed closed with ⟨empty, idle, between⟩
      rcases tr.empty empty with ⟨still, nothing⟩
      have same : sink = path.down.between := tr.idle idle
      exact ⟨still, nothing idle, same ▸ between⟩
    tunnel := fun started => absurd (sound.tunnel started).1 copying.1 }

theorem copyOutDown (copying : path.down.leave.Copying)
    (tr : Transfer false path.down.between path.down.out path.down.leave (stage, src, sink)) :
    Sound { path with
      down := { path.down with leave := stage, between := src, out := sink } } :=
  { sound with
    downConserves := sound.downConserves.copyOut tr
    enterUpDone := fun done =>
      ⟨(sound.enterUpDone done).1, tr.sourceDropped.trans (sound.enterUpDone done).2⟩
    downBetweenDropped := fun dropped =>
      sound.downBetweenDropped (tr.sourceDropped.symm.trans dropped)
    downBetweenEnded := fun ended => sound.downBetweenEnded (tr.sourceEnded.symm.trans ended)
    leaveDown := by
      intro gone
      rcases tr.gone gone with ⟨prev, -⟩ | dropped | ⟨ended, -⟩
      · exact sound.leaveDown prev
      · rw [sound.downBetweenDropped dropped]
        trivial
      · exact sound.exited_of_leaveUp_done (sound.downBetweenEnded ended)
    upIntoDropped := fun dropped => absurd (sound.upIntoDropped dropped) copying.1
    leaveDownDone := fun done => absurd done tr.notDone
    downOutEnded := fun ended =>
      absurd (sound.downOutEnded (tr.sinkEnded.symm.trans ended)) copying.1
    passed := by
      intro closed
      rcases sound.passed closed with ⟨empty, idle, between⟩
      exact ⟨empty, idle, (tr.empty between).1⟩
    downOut := tr.sinkDropped.trans sound.downOut
    p2x := fun started => absurd (sound.p2x started).2 copying.1
    clientSaw := fun saw => tr.sinkEnded.trans (sound.clientSaw saw) }

theorem isOpen_enterUp (copying : path.up.enter.Copying) :
    path.up.between.ended = false ∧ path.up.between.dropped = false := by
  constructor
  · apply Bool.eq_false_iff.mpr
    intro ended
    exact copying.not_exited (sound.upBetweenEnded ended)
  apply Bool.eq_false_iff.mpr
  intro dropped
  exact copying.not_exited (sound.exited_of_leaveUp_done (sound.upBetweenDropped dropped))

theorem isOpen_leaveUp (copying : path.up.leave.Copying) :
    path.up.out.ended = false ∧ path.up.out.dropped = false := by
  refine ⟨Bool.eq_false_iff.mpr ?_, sound.upOut⟩
  intro ended
  exact copying.1 (sound.upOutEnded ended)

theorem isOpen_enterDown (pending : path.down.enter.pending ≠ []) :
    path.down.between.ended = false ∧ path.down.between.dropped = false := by
  have unclosed : path.up.closed ≠ true := fun closed => pending (sound.passed closed).2.1
  constructor
  · apply Bool.eq_false_iff.mpr
    intro ended
    exact unclosed (sound.closed_of_leaveUp_done (sound.downBetweenEnded ended))
  apply Bool.eq_false_iff.mpr
  intro dropped
  apply unclosed (sound.closed_of_exited _)
  rw [sound.downBetweenDropped dropped]
  trivial

theorem isOpen_leaveDown (copying : path.down.leave.Copying) :
    path.down.out.ended = false ∧ path.down.out.dropped = false := by
  refine ⟨Bool.eq_false_iff.mpr ?_, sound.downOut⟩
  intro ended
  exact copying.1 (sound.downOutEnded ended)

theorem halfClose (stage : path.up.enter = .returning true) :
    Sound { path with
      up := { path.up with between := path.up.between.finish, enter := .returning false } } := by
  have gone : path.up.enter.Gone := by
    rw [stage]
    trivial
  exact
    { sound with
      upConserves := sound.upConserves.enterReturns stage (.returning false) rfl
      enterUp := fun _ => sound.enterUp gone
      upBetweenEnded := fun _ => rfl
      enterUpDone := nofun
      downBetweenDropped := by
        intro dropped
        have done := sound.downBetweenDropped dropped
        rw [stage] at done
        cases done
      leaveUp := fun leaving => ⟨rfl, (sound.leaveUp leaving).2⟩
      leaveDown := fun _ => rfl
      p2x := by
        intro started
        have done := (sound.p2x started).1
        rw [stage] at done
        cases done }

theorem enterUpReturns (stage : path.up.enter = .returning false) :
    Sound { path.streamCloseP2x with up := { path.streamCloseP2x.up with enter := .done } } := by
  have gone : path.up.enter.Gone := by
    rw [stage]
    trivial
  exact
    { sound with
      upConserves := sound.upConserves.enterReturns stage .done rfl
      enterUp := fun _ => sound.enterUp gone
      upBetweenEnded := fun _ => trivial
      enterUpDone := fun _ => ⟨rfl, rfl⟩
      downBetweenDropped := fun _ => rfl
      leaveUp := fun leaving => ⟨rfl, (sound.leaveUp leaving).2⟩
      leaveDown := fun _ => trivial
      p2x := fun started => ⟨rfl, (sound.p2x started).2⟩ }

theorem leaveUpReturns (stage : path.up.leave = .returning half) :
    Sound { path.connCloseTunnel with
      up := { path.connCloseTunnel.up with leave := .done } } := by
  have gone : path.up.leave.Gone := by
    rw [stage]
    trivial
  exact
    { sound with
      upConserves := sound.upConserves.leaveReturns stage
      leaveUp := fun _ => sound.leaveUp gone
      leaveUpDone := fun _ => ⟨rfl, rfl⟩
      upOutEnded := fun _ => rfl
      downIntoDropped := fun _ => rfl
      upBetweenDropped := fun _ => rfl
      downBetweenEnded := fun _ => rfl
      tunnel := fun started => ⟨(sound.tunnel started).1, rfl⟩ }

theorem enterDownReturns (stage : path.down.enter = .returning half) :
    Sound { path with down := { path.down with enter := .done } } := by
  have gone : path.down.enter.Gone := by
    rw [stage]
    trivial
  exact
    { sound with
      downConserves := sound.downConserves.enterReturns stage .done rfl
      enterDown := fun _ => sound.enterDown gone
      passed := fun closed => ⟨(sound.passed closed).1, rfl, (sound.passed closed).2.2⟩
      tunnel := fun started => ⟨rfl, (sound.tunnel started).2⟩ }

theorem leaveDownReturns (stage : path.down.leave = .returning half) :
    Sound { path.connCloseP2x with
      down := { path.connCloseP2x.down with leave := .done } } := by
  have gone : path.down.leave.Gone := by
    rw [stage]
    trivial
  exact
    { sound with
      downConserves := sound.downConserves.leaveReturns stage
      leaveDown := fun _ => sound.leaveDown gone
      upIntoDropped := fun _ => rfl
      leaveDownDone := fun _ => rfl
      downOutEnded := fun _ => rfl
      p2x := fun started => ⟨(sound.p2x started).1, rfl⟩
      clientSaw := fun _ => rfl }

theorem stepP2x : path.stepP2x.Sound := by
  rw [Path.stepP2x]
  split
  · split
    · rename_i both
      rcases sound.enterUpDone both.1 with ⟨ended, dropped⟩
      exact
        { sound with
          upBetweenEnded := fun _ => sound.upBetweenEnded ended
          enterUpDone := fun _ => ⟨rfl, rfl⟩
          downBetweenDropped := fun _ => both.1
          leaveUp := fun leaving => ⟨rfl, (sound.leaveUp leaving).2⟩
          p2x := fun _ => both }
    · exact sound
  · rename_i closing
    have both := sound.p2x (by rw [closing]; decide)
    exact
      { sound with
        upIntoDropped := fun _ => both.2
        leaveDownDone := fun _ => rfl
        downOutEnded := fun _ => both.2
        p2x := fun _ => both
        clientSaw := fun _ => rfl }
  · exact sound

theorem stepTunnel : path.stepTunnel.Sound := by
  rw [Path.stepTunnel]
  split
  · split
    · rename_i both
      exact
        { sound with
          leaveUpDone := fun _ => ⟨rfl, rfl⟩
          upOutEnded := fun _ => both.2
          downIntoDropped := fun _ => both.2
          tunnel := fun _ => both }
    · exact sound
  · rename_i closing
    have both := sound.tunnel (by rw [closing]; decide)
    exact
      { sound with
        upBetweenDropped := fun _ => both.2
        downBetweenEnded := fun _ => both.2
        tunnel := fun _ => both }
  · exact sound

theorem receiveUp (amt : Nat) : Sound { path with up := path.up.receive amt } := by
  have conserves := sound.upConserves.receive amt
  rcases path.up.receive_spec amt with ⟨received, buf, sawEnd, same, -⟩
  rw [same] at conserves ⊢
  exact { sound with upConserves := conserves }

theorem receiveDown (amt : Nat) : Sound { path with down := path.down.receive amt } := by
  have conserves := sound.downConserves.receive amt
  rcases path.down.receive_spec amt with ⟨received, buf, sawEnd, same, -, seen⟩
  rw [same] at conserves ⊢
  exact
    { sound with
      downConserves := conserves
      clientSaw := fun saw => (seen saw).elim sound.clientSaw id }

theorem move (move : Move) : (path.move move).Sound := by
  cases move with
  | enterUp amt flag =>
    rw [Path.move, Path.enterUp]
    split
    · exact sound.halfClose ‹_›
    · exact sound.enterUpReturns ‹_›
    rename_i notHalf notReturning
    by_cases done : path.up.enter = .done
    · rw [Lane.copyIn_of_done done]
      exact sound
    have copying : path.up.enter.Copying := by
      refine ⟨done, ?_⟩
      rintro (_ | _) stage
      · exact notReturning stage
      · exact notHalf stage
    exact sound.copyInUp copying
      ((copied_copy ..).transfer copying fun _ => sound.isOpen_enterUp copying)
  | leaveUp amt flag =>
    rw [Path.move, Path.leaveUp]
    split
    · exact sound.leaveUpReturns ‹_›
    rename_i notReturning
    by_cases done : path.up.leave = .done
    · rw [Lane.copyOut_of_done done]
      exact sound
    have copying : path.up.leave.Copying := ⟨done, notReturning⟩
    exact sound.copyOutUp copying
      ((copied_copy ..).transfer copying fun _ => sound.isOpen_leaveUp copying)
  | enterDown amt flag =>
    rw [Path.move, Path.enterDown]
    split
    · exact sound.enterDownReturns ‹_›
    rename_i notReturning
    by_cases done : path.down.enter = .done
    · rw [Lane.copyIn_of_done done]
      exact sound
    · have copying : path.down.enter.Copying := ⟨done, notReturning⟩
      exact sound.copyInDown copying ((copied_copy ..).transfer copying sound.isOpen_enterDown)
  | leaveDown amt flag =>
    rw [Path.move, Path.leaveDown]
    split
    · exact sound.leaveDownReturns ‹_›
    rename_i notReturning
    by_cases done : path.down.leave = .done
    · rw [Lane.copyOut_of_done done]
      exact sound
    have copying : path.down.leave.Copying := ⟨done, notReturning⟩
    exact sound.copyOutDown copying
      ((copied_copy ..).transfer copying fun _ => sound.isOpen_leaveDown copying)
  | handleP2x => exact sound.stepP2x
  | handleTunnel => exact sound.stepTunnel
  | targetReads amt => exact sound.receiveUp amt
  | clientReads amt => exact sound.receiveDown amt

end Sound

/-- What the ends may do: the client closes its sending side when everything that the target
has sent is past the stream, the target sends nothing after that, and it closes its
sending side only then. -/
def Orderly (path : Path) : Action → Prop
  | .clientCloses => path.down.Passed
  | .targetSends bytes => path.up.closed → path.down.closed ∨ bytes = []
  | .targetCloses => path.up.closed
  | _ => True

instance (path : Path) (action : Action) : Decidable (path.Orderly action) :=
  match action with
  | .clientCloses => inferInstanceAs (Decidable path.down.Passed)
  | .targetSends _ => inferInstanceAs (Decidable (_ → _))
  | .targetCloses => inferInstanceAs (Decidable (_ = _))
  | .clientSends _ => inferInstanceAs (Decidable True)
  | .moves _ => inferInstanceAs (Decidable True)

namespace Sound

variable {path : Path} (sound : path.Sound)

include sound

theorem clientSends (bytes : Bytes) : Sound { path with up := path.up.send bytes } := by
  rw [Lane.send]
  split
  · exact sound
  rename_i unclosed
  have staying : ¬path.up.enter.Gone := fun gone => unclosed (sound.enterUp gone).1
  have isOpen : path.up.into.dropped = false := by
    apply Bool.eq_false_iff.mpr
    intro dropped
    apply staying (Stage.Exited.gone (sound.leaveDown _))
    rw [sound.upIntoDropped dropped]
    trivial
  have written : path.up.into.write bytes =
      { path.up.into with buffer := path.up.into.buffer ++ bytes } := by
    rw [Channel.write, if_neg (Bool.eq_false_iff.mp isOpen)]
  have conserves := sound.upConserves.send (congrArg Channel.buffer written)
  rw [written] at conserves ⊢
  exact
    { sound with
      upConserves := conserves
      enterUp := fun gone => absurd gone staying
      upIntoDropped := sound.upIntoDropped }

theorem clientCloses (passed : path.down.Passed) : Sound { path with up := path.up.close } :=
  { sound with
    upEnded := rfl
    enterUp := fun gone => ⟨rfl, (sound.enterUp gone).2⟩
    enterDown := fun _ => rfl
    passed := fun _ => passed
    closes := fun _ => rfl }

theorem targetSends (tidy : path.up.closed → path.down.closed ∨ bytes = []) :
    Sound { path with down := path.down.send bytes } := by
  rw [Lane.send]
  split
  · exact sound
  rename_i unclosed
  have nothing : path.up.closed → bytes = [] := fun closed =>
    (tidy closed).resolve_left unclosed
  have written : (path.down.into.write bytes).buffer = path.down.into.buffer ++ bytes := by
    rw [Channel.write]
    split
    · rename_i dropped
      rw [nothing (sound.closed_of_leaveUp_done (sound.downIntoDropped dropped)), append_nil]
    · rfl
  have flags : (path.down.into.write bytes).ended = path.down.into.ended ∧
      (path.down.into.write bytes).dropped = path.down.into.dropped := by
    rw [Channel.write]
    split <;> exact ⟨rfl, rfl⟩
  exact
    { sound with
      downConserves := sound.downConserves.send written
      downEnded := flags.1.trans sound.downEnded
      leaveUpDone := fun done =>
        ⟨(sound.leaveUpDone done).1, flags.2.trans (sound.leaveUpDone done).2⟩
      downIntoDropped := fun dropped => sound.downIntoDropped (flags.2.symm.trans dropped)
      passed := by
        intro closed
        rcases sound.passed closed with ⟨empty, rest⟩
        refine ⟨?_, rest⟩
        rw [written, empty, nothing closed]
        rfl }

theorem targetCloses (closed : path.up.closed) : Sound { path with down := path.down.close } :=
  { sound with
    downEnded := rfl
    closes := fun _ => closed }

theorem act (tidy : path.Orderly a) : (path.act a).Sound := by
  cases a with
  | clientSends bytes => exact sound.clientSends bytes
  | clientCloses => exact sound.clientCloses tidy
  | targetSends => exact sound.targetSends tidy
  | targetCloses => exact sound.targetCloses tidy
  | moves move => exact sound.move move

end Sound

end Path

end Peerscale.Pbtunnel
