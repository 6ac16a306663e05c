import Mathlib.Tactic
import Peerscale.Foundation.Dialogue
import Peerscale.Pbtunnel.Path

/-! # Progress on the path

Every move brings bytes or the end of a stream further. When nothing can move any more,
each goroutine has ended or waits for something to read.
-/

namespace Peerscale.Pbtunnel

open Stage Lane Channel

inductive Copied (halfCloses : Bool) (src sink : Channel) :
    Stage → Stage × Channel × Channel → Prop
  | waits (idle : src.Idle) : Copied halfCloses src sink .reading (.reading, src, sink)
  | fails (shut : src.dropped ∨ src.ended ∧ src.buffer = []) :
      Copied halfCloses src sink .reading (.returning halfCloses, src, sink)
  | reads (first : UInt8) (rest left : Bytes) (failed : Bool)
      (content : src.buffer = first :: rest ++ left) (isOpen : src.dropped = false)
      (last : failed → src.ended ∧ left = []) :
      Copied halfCloses src sink .reading
        (.writing first rest failed, { src with buffer := left }, sink)
  | refused {first : UInt8} {rest : Bytes} {failed : Bool}
      (shut : sink.ended ∨ sink.dropped) :
      Copied halfCloses src sink (.writing first rest failed) (.returning false, src, sink)
  | writes {first : UInt8} {rest : Bytes} {failed : Bool} (part more : Bytes)
      (split : first :: rest = part ++ more) (some : part ≠ []) (isOpen : sink.ended = false) :
      Copied halfCloses src sink (.writing first rest failed)
        (Stage.after halfCloses failed more, src, sink.write part)
  | returning (half : Bool) :
      Copied halfCloses src sink (.returning half) (.returning half, src, sink)
  | done : Copied halfCloses src sink .done (.done, src, sink)

theorem copied_copy (halfCloses : Bool) (src sink : Channel) (stage : Stage) (amt : Nat)
    (flag : Bool) : Copied halfCloses src sink stage (copy halfCloses src sink stage amt flag) := by
  cases stage with
  | reading =>
    rw [copy]
    split
    · rename_i dropped
      exact Copied.fails (.inl dropped)
    rename_i notDropped
    have isOpen := Bool.eq_false_iff.mpr notDropped
    dsimp only
    have pos : 0 < min bufSize (max 1 amt) := by
      rw [bufSize]
      omega
    generalize min bufSize (max 1 amt) = n at pos
    have parts := (List.take_append_drop n src.buffer).symm
    cases taken : src.buffer.take n with
    | cons x rest =>
      rw [taken] at parts
      apply Copied.reads x rest _ _ parts isOpen
      intro failed
      rw [Bool.and_eq_true, Bool.and_eq_true, List.isEmpty_iff] at failed
      exact failed.1
    | nil =>
      have nothing : src.buffer = [] := by
        rcases List.take_eq_nil_iff.mp taken with zero | empty
        · omega
        · exact empty
      have same : { src with buffer := src.buffer.drop n } = src := by
        rw [nothing, List.drop_nil, ← nothing]
      rw [same, nothing, List.drop_nil]
      by_cases ended : src.ended
      · rw [ended, List.isEmpty_nil, Bool.or_true]
        exact Copied.fails (.inr ⟨ended, nothing⟩)
      · rw [Bool.eq_false_iff.mpr ended]
        exact Copied.waits ⟨nothing, Bool.eq_false_iff.mpr ended, isOpen⟩
  | writing x rest failed =>
    rw [copy]
    split
    · rename_i shut
      rw [Bool.or_eq_true, Bool.and_eq_true] at shut
      exact Copied.refused (shut.imp_right And.left)
    rename_i isOpen
    rw [Bool.or_eq_true, not_or] at isOpen
    apply Copied.writes _ _ (List.take_append_drop _ _).symm _ (Bool.eq_false_iff.mpr isOpen.1)
    intro none
    rcases List.take_eq_nil_iff.mp none with zero | empty
    · omega
    · cases empty
  | returning half => exact Copied.returning half
  | done => exact Copied.done

def Stage.rank : Stage → Nat
  | .writing _ _ _ => 4
  | .reading => 3
  | .returning true => 2
  | .returning false => 1
  | .done => 0

theorem Stage.cost_after (halfCloses failed : Bool) (bytes : Bytes) :
    (after halfCloses failed bytes).pending = bytes ∧ (after halfCloses failed bytes).rank ≤ 4 := by
  cases bytes with
  | nil => cases failed <;> cases halfCloses <;> exact ⟨rfl, by decide⟩
  | cons => exact ⟨rfl, Nat.le_refl _⟩

/-- What is still to be done by a loop and those after it; `weight` is for a byte that it
has written. -/
def cost (weight : Nat) : Stage × Channel × Channel → Nat
  | (stage, src, sink) =>
    (weight + 4) * src.buffer.length + (weight + 2) * stage.pending.length +
      weight * sink.buffer.length + stage.rank

variable {halfCloses : Bool} {src : Channel} {stage : Stage}

theorem length_write_le (channel : Channel) (bytes : Bytes) :
    (channel.write bytes).buffer.length ≤ channel.buffer.length + bytes.length := by
  rw [write]
  split
  · omega
  · exact Nat.le_of_eq List.length_append

theorem Copied.cost_lt (copied : Copied halfCloses src sink stage res) (weight : Nat) :
    res = (stage, src, sink) ∨ cost weight res < cost weight (stage, src, sink) := by
  cases copied with
  | waits | returning | done => exact .inl rfl
  | fails =>
    right
    cases halfCloses <;> simp [cost, pending, rank]
  | reads x rest left failed content =>
    right
    simp only [cost, pending, rank, content, List.length_append, List.length_cons,
      List.length_nil, Nat.mul_add, Nat.add_mul]
    omega
  | refused =>
    right
    simp only [cost, pending, rank, List.length_cons, List.length_nil, Nat.mul_add]
    omega
  | @writes x rest failed part more split some =>
    right
    have post := cost_after halfCloses failed more
    have written := Nat.mul_le_mul_left weight (length_write_le sink part)
    have pos : 0 < part.length := List.length_pos_iff.mpr some
    have pre : (writing x rest failed).pending = part ++ more := split
    have rank : (writing x rest failed).rank = 4 := rfl
    simp only [cost, post.1, pre, rank, List.length_append, Nat.mul_add, Nat.add_mul] at written ⊢
    omega

def Lane.potential (lane : Lane) : Nat :=
  10 * lane.into.buffer.length + 8 * lane.enter.pending.length +
    6 * lane.between.buffer.length + 4 * lane.leave.pending.length +
    2 * lane.out.buffer.length + lane.enter.rank + lane.leave.rank +
    (if lane.sawEnd then 0 else 1)

theorem Lane.copyIn_decreases (lane : Lane) (halfCloses : Bool) (amt : Nat) (flag : Bool) :
    lane.copyIn halfCloses amt flag = lane ∨
      (lane.copyIn halfCloses amt flag).potential < lane.potential := by
  rw [copyIn]
  rcases (copied_copy halfCloses lane.into lane.between lane.enter amt flag).cost_lt 6 with
    same | less
  · rw [same]
    exact .inl rfl
  right
  simp only [cost] at less
  simp only [potential]
  omega

theorem Lane.copyOut_decreases (lane : Lane) (amt : Nat) (flag : Bool) :
    lane.copyOut amt flag = lane ∨ (lane.copyOut amt flag).potential < lane.potential := by
  rw [copyOut]
  rcases (copied_copy false lane.between lane.out lane.leave amt flag).cost_lt 2 with
    same | less
  · rw [same]
    exact .inl rfl
  right
  simp only [cost] at less
  simp only [potential]
  omega

theorem Lane.receive_decreases (lane : Lane) (amt : Nat) :
    lane.receive amt = lane ∨ (lane.receive amt).potential < lane.potential := by
  rw [receive]
  split
  · split
    · cases seen : lane.sawEnd with
      | true =>
        left
        rw [← seen]
      | false =>
        right
        simp [potential, seen]
    · exact .inl rfl
  rename_i x rest content
  right
  simp only [potential, content, List.length_drop, List.length_cons]
  omega

def Main.rank : Main → Nat
  | .waiting => 2
  | .closing => 1
  | .returned => 0

namespace Path

def potential (path : Path) : Nat :=
  path.up.potential + path.down.potential + path.handleP2x.rank + path.handleTunnel.rank

variable {path : Path}

theorem up_decreases (step : lane = path.up ∨ lane.potential < path.up.potential) :
    { path with up := lane } = path ∨ potential { path with up := lane } < path.potential := by
  rcases step with rfl | less
  · exact .inl rfl
  right
  simp only [potential]
  omega

theorem down_decreases (step : lane = path.down ∨ lane.potential < path.down.potential) :
    { path with down := lane } = path ∨ potential { path with down := lane } < path.potential := by
  rcases step with rfl | less
  · exact .inl rfl
  right
  simp only [potential]
  omega

theorem move_decreases (path : Path) (move : Move) :
    path.move move = path ∨ (path.move move).potential < path.potential := by
  cases move with
  | enterUp amt flag =>
    rw [Path.move, enterUp]
    split
    · rename_i stage
      right
      simp [potential, Lane.potential, stage, finish, pending, rank]
    · rename_i stage
      right
      simp [potential, Lane.potential, stage, streamCloseP2x, finish, drop, pending, rank]
    · exact up_decreases (path.up.copyIn_decreases true amt flag)
  | leaveUp amt flag =>
    rw [Path.move, leaveUp]
    split
    · rename_i half stage
      right
      cases half <;> simp [potential, Lane.potential, stage, connCloseTunnel, finish,
        drop, pending, rank]
    · exact up_decreases (path.up.copyOut_decreases amt flag)
  | enterDown amt flag =>
    rw [Path.move, enterDown]
    split
    · rename_i half stage
      right
      cases half <;> simp [potential, Lane.potential, stage, pending, rank]
    · exact down_decreases (path.down.copyIn_decreases false amt flag)
  | leaveDown amt flag =>
    rw [Path.move, leaveDown]
    split
    · rename_i half stage
      right
      cases half <;> simp [potential, Lane.potential, stage, connCloseP2x, finish,
        drop, pending, rank]
    · exact down_decreases (path.down.copyOut_decreases amt flag)
  | handleP2x =>
    rw [Path.move, stepP2x]
    split
    · rename_i stage
      split
      · right
        simp [potential, Lane.potential, stage, streamCloseP2x, finish, drop, Main.rank]
      · exact .inl rfl
    · rename_i stage
      right
      simp [potential, Lane.potential, stage, connCloseP2x, finish, drop, Main.rank]
    · exact .inl rfl
  | handleTunnel =>
    rw [Path.move, stepTunnel]
    split
    · rename_i stage
      split
      · right
        simp [potential, Lane.potential, stage, connCloseTunnel, finish, drop, Main.rank]
      · exact .inl rfl
    · rename_i stage
      right
      simp [potential, Lane.potential, stage, closeStreamTunnel, finish, drop, Main.rank]
    · exact .inl rfl
  | targetReads amt => exact up_decreases (path.up.receive_decreases amt)
  | clientReads amt => exact down_decreases (path.down.receive_decreases amt)

theorem Moves.potential_lt (moves : path.Moves next) : next.potential < path.potential := by
  rcases moves with ⟨ne, move, rfl⟩
  exact (path.move_decreases move).resolve_left ne

end Path

def Stage.Blocked (stage : Stage) (src : Channel) : Prop :=
  stage = .done ∨ stage = .reading ∧ src.Idle
  deriving Decidable

variable {amt : Nat} {flag : Bool}

theorem Stage.Blocked.copy_eq (blocked : stage.Blocked src) (halfCloses : Bool) (sink : Channel)
    (amt : Nat) (flag : Bool) : copy halfCloses src sink stage amt flag = (stage, src, sink) := by
  have copied := copied_copy halfCloses src sink stage amt flag
  generalize copy halfCloses src sink stage amt flag = res at copied
  rcases blocked with rfl | ⟨rfl, empty, notEnded, notDropped⟩
  · cases copied
    rfl
  cases copied with
  | waits => rfl
  | fails shut =>
    rcases shut with dropped | ⟨ended, -⟩
    · rw [notDropped] at dropped
      cases dropped
    · rw [notEnded] at ended
      cases ended
  | reads x rest left failed content =>
    rw [empty] at content
    cases content

theorem blocked_of_copy_eq (same : copy halfCloses src sink stage amt flag = (stage, src, sink)) :
    stage.Blocked src ∨ ∃ half, stage = .returning half := by
  have copied := copied_copy halfCloses src sink stage amt flag
  generalize copy halfCloses src sink stage amt flag = res at copied same
  cases copied with
  | waits idle => exact .inl (.inr ⟨rfl, idle⟩)
  | returning half => exact .inr ⟨half, rfl⟩
  | done => exact .inl (.inl rfl)
  | fails | reads | refused => cases same
  | @writes x rest failed part more split some =>
    have left : more = part ++ more := by
      rw [← split, ← (cost_after halfCloses failed more).1]
      exact congrArg (fun step => step.1.pending) same
    exact absurd (List.append_left_eq_self.mp left.symm) some

structure Lane.Blocked (lane : Lane) : Prop where
  enter : lane.enter.Blocked lane.into
  leave : lane.leave.Blocked lane.between
  empty : lane.out.buffer = []
  seen : lane.out.ended → lane.sawEnd

instance (lane : Lane) : Decidable lane.Blocked :=
  decidable_of_iff (lane.enter.Blocked lane.into ∧ lane.leave.Blocked lane.between ∧
      lane.out.buffer = [] ∧ (lane.out.ended → lane.sawEnd))
    ⟨fun all => ⟨all.1, all.2.1, all.2.2.1, all.2.2.2⟩,
      fun blocked => ⟨blocked.enter, blocked.leave, blocked.empty, blocked.seen⟩⟩

variable {lane : Lane}

theorem Lane.Blocked.copyIn_eq (blocked : lane.Blocked) (halfCloses : Bool) (amt : Nat)
    (flag : Bool) : lane.copyIn halfCloses amt flag = lane := by
  rw [copyIn, blocked.enter.copy_eq]

theorem Lane.Blocked.copyOut_eq (blocked : lane.Blocked) (amt : Nat) (flag : Bool) :
    lane.copyOut amt flag = lane := by
  rw [copyOut, blocked.leave.copy_eq]

theorem Lane.Blocked.receive_eq (blocked : lane.Blocked) (amt : Nat) : lane.receive amt = lane := by
  rw [receive, blocked.empty]
  dsimp only
  split
  · rename_i ended
    rw [← blocked.seen ended]
  · rfl

theorem Stage.Blocked.ne_returning (blocked : stage.Blocked src) (half : Bool) :
    stage ≠ .returning half := by
  rintro rfl
  rcases blocked with done | ⟨reading, -⟩
  · cases done
  · cases reading

namespace Path

structure Blocked (path : Path) : Prop where
  up : path.up.Blocked
  down : path.down.Blocked
  p2x : path.handleP2x = .returned ∨
    path.handleP2x = .waiting ∧ ¬(path.up.enter = .done ∧ path.down.leave = .done)
  tunnel : path.handleTunnel = .returned ∨
    path.handleTunnel = .waiting ∧ ¬(path.down.enter = .done ∧ path.up.leave = .done)

instance (path : Path) : Decidable path.Blocked :=
  decidable_of_iff (path.up.Blocked ∧ path.down.Blocked ∧ (path.handleP2x = .returned ∨
        path.handleP2x = .waiting ∧ ¬(path.up.enter = .done ∧ path.down.leave = .done)) ∧
      (path.handleTunnel = .returned ∨
        path.handleTunnel = .waiting ∧ ¬(path.down.enter = .done ∧ path.up.leave = .done)))
    ⟨fun all => ⟨all.1, all.2.1, all.2.2.1, all.2.2.2⟩,
      fun blocked => ⟨blocked.up, blocked.down, blocked.p2x, blocked.tunnel⟩⟩

theorem Blocked.move_eq (blocked : Blocked path) (move : Move) : path.move move = path := by
  cases move with
  | enterUp amt flag =>
    rw [Path.move, enterUp]
    split
    · rename_i stage
      exact absurd stage (blocked.up.enter.ne_returning _)
    · rename_i stage
      exact absurd stage (blocked.up.enter.ne_returning _)
    · rw [blocked.up.copyIn_eq]
  | leaveUp amt flag =>
    rw [Path.move, leaveUp]
    split
    · rename_i stage
      exact absurd stage (blocked.up.leave.ne_returning _)
    · rw [blocked.up.copyOut_eq]
  | enterDown amt flag =>
    rw [Path.move, enterDown]
    split
    · rename_i stage
      exact absurd stage (blocked.down.enter.ne_returning _)
    · rw [blocked.down.copyIn_eq]
  | leaveDown amt flag =>
    rw [Path.move, leaveDown]
    split
    · rename_i stage
      exact absurd stage (blocked.down.leave.ne_returning _)
    · rw [blocked.down.copyOut_eq]
  | handleP2x =>
    rw [Path.move, stepP2x]
    rcases blocked.p2x with ret | ⟨waiting, notDone⟩
    · rw [ret]
    · rw [waiting]
      exact if_neg notDone
  | handleTunnel =>
    rw [Path.move, stepTunnel]
    rcases blocked.tunnel with ret | ⟨waiting, notDone⟩
    · rw [ret]
    · rw [waiting]
      exact if_neg notDone
  | targetReads => rw [Path.move, blocked.up.receive_eq]
  | clientReads => rw [Path.move, blocked.down.receive_eq]

theorem Blocked.not_moves (blocked : Blocked path) (next : Path) : ¬path.Moves next := by
  rintro ⟨ne, move, rfl⟩
  exact ne (blocked.move_eq move)

end Path

theorem Lane.blocked_enter (same : lane.copyIn halfCloses amt flag = lane)
    (ret : ∀ half, lane.enter ≠ .returning half) : lane.enter.Blocked lane.into := by
  have step : copy halfCloses lane.into lane.between lane.enter amt flag =
      (lane.enter, lane.into, lane.between) :=
    Prod.ext (congrArg enter same) (Prod.ext (congrArg into same) (congrArg between same))
  exact (blocked_of_copy_eq step).resolve_right fun ⟨half, stage⟩ => ret half stage

theorem Lane.blocked_leave (same : lane.copyOut amt flag = lane)
    (ret : ∀ half, lane.leave ≠ .returning half) : lane.leave.Blocked lane.between := by
  have step : copy false lane.between lane.out lane.leave amt flag =
      (lane.leave, lane.between, lane.out) :=
    Prod.ext (congrArg leave same) (Prod.ext (congrArg between same) (congrArg out same))
  exact (blocked_of_copy_eq step).resolve_right fun ⟨half, stage⟩ => ret half stage

theorem Lane.received_all (same : lane.receive 1 = lane) :
    lane.out.buffer = [] ∧ (lane.out.ended → lane.sawEnd) := by
  rw [receive] at same
  split at same
  · rename_i empty
    refine ⟨empty, ?_⟩
    intro ended
    rw [if_pos ended] at same
    rw [← same]
  rename_i x rest content
  have shorter := congrArg (fun lane => lane.out.buffer.length) same
  simp only [content, List.length_drop, List.length_cons] at shorter
  omega

namespace Path

variable {path : Path}

theorem blocked_enterUp (same : path.enterUp 1 true = path) :
    path.up.enter.Blocked path.up.into := by
  rw [enterUp] at same
  split at same
  · rename_i stage
    have next : returning false = path.up.enter := congrArg (fun path => path.up.enter) same
    rw [stage] at next
    cases next
  · rename_i stage
    have next : done = path.up.enter := congrArg (fun path => path.up.enter) same
    rw [stage] at next
    cases next
  rename_i notHalf notReturning
  apply blocked_enter (congrArg Path.up same)
  rintro (_ | _) stage
  · exact notReturning stage
  · exact notHalf stage

theorem blocked_leaveUp (same : path.leaveUp 1 true = path) :
    path.up.leave.Blocked path.up.between := by
  rw [leaveUp] at same
  split at same
  · rename_i stage
    have next : done = path.up.leave := congrArg (fun path => path.up.leave) same
    rw [stage] at next
    cases next
  · rename_i notReturning
    exact blocked_leave (congrArg Path.up same) notReturning

theorem blocked_enterDown (same : path.enterDown 1 true = path) :
    path.down.enter.Blocked path.down.into := by
  rw [enterDown] at same
  split at same
  · rename_i stage
    have next : done = path.down.enter := congrArg (fun path => path.down.enter) same
    rw [stage] at next
    cases next
  · rename_i notReturning
    exact blocked_enter (congrArg Path.down same) notReturning

theorem blocked_leaveDown (same : path.leaveDown 1 true = path) :
    path.down.leave.Blocked path.down.between := by
  rw [leaveDown] at same
  split at same
  · rename_i stage
    have next : done = path.down.leave := congrArg (fun path => path.down.leave) same
    rw [stage] at next
    cases next
  · rename_i notReturning
    exact blocked_leave (congrArg Path.down same) notReturning

theorem blocked_stepP2x (same : path.stepP2x = path) :
    path.handleP2x = .returned ∨
      path.handleP2x = .waiting ∧ ¬(path.up.enter = .done ∧ path.down.leave = .done) := by
  rw [stepP2x] at same
  split at same
  · rename_i waiting
    right
    refine ⟨waiting, ?_⟩
    intro both
    rw [if_pos both] at same
    have next : Main.closing = path.handleP2x := congrArg Path.handleP2x same
    rw [waiting] at next
    cases next
  · rename_i closing
    have next : Main.returned = path.handleP2x := congrArg Path.handleP2x same
    rw [closing] at next
    cases next
  · rename_i ret
    exact .inl ret

theorem blocked_stepTunnel (same : path.stepTunnel = path) :
    path.handleTunnel = .returned ∨
      path.handleTunnel = .waiting ∧ ¬(path.down.enter = .done ∧ path.up.leave = .done) := by
  rw [stepTunnel] at same
  split at same
  · rename_i waiting
    right
    refine ⟨waiting, ?_⟩
    intro both
    rw [if_pos both] at same
    have next : Main.closing = path.handleTunnel := congrArg Path.handleTunnel same
    rw [waiting] at next
    cases next
  · rename_i closing
    have next : Main.returned = path.handleTunnel := congrArg Path.handleTunnel same
    rw [closing] at next
    cases next
  · rename_i ret
    exact .inl ret

theorem blocked_of_stuck (stuck : ¬∃ next, path.Moves next) : path.Blocked := by
  have still : ∀ move, path.move move = path := by
    intro move
    by_contra ne
    exact stuck ⟨_, ne, move, rfl⟩
  have target := received_all (congrArg Path.up (still (.targetReads 1)))
  have client := received_all (congrArg Path.down (still (.clientReads 1)))
  exact
    { up := ⟨blocked_enterUp (still (.enterUp 1 true)), blocked_leaveUp (still (.leaveUp 1 true)),
        target.1, target.2⟩
      down := ⟨blocked_enterDown (still (.enterDown 1 true)),
        blocked_leaveDown (still (.leaveDown 1 true)), client.1, client.2⟩
      p2x := blocked_stepP2x (still .handleP2x)
      tunnel := blocked_stepTunnel (still .handleTunnel) }

theorem blocked_iff : path.Blocked ↔ ¬∃ next, path.Moves next :=
  ⟨fun blocked ⟨next, moves⟩ => blocked.not_moves next moves, blocked_of_stuck⟩

end Path

end Peerscale.Pbtunnel
