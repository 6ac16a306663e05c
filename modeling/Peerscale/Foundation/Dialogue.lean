import Peerscale.Foundation.Program
import Mathlib.Data.List.Basic
import Mathlib.Logic.Relation

/-! # Two programs in conversation

Two deterministic parties that react to each other's messages over lossless,
ordered channels of bounded capacity. Their operations interleave freely. Since
they share nothing but the channels, where each of them will stand once it has
finished its current reaction does not depend on the interleaving, so a plan of
the conversation need only speak about whole reactions.
-/

namespace Peerscale

/-- No run from here can get stuck or go on for ever without meeting the goal. -/
inductive Inevitable {State : Type} (step : State → State → Prop) (goal : State → Prop) :
    State → Prop
  | now {state : State} (reached : goal state) : Inevitable step goal state
  | later {state : State} (possible : ∃ next, step state next)
      (onwards : ∀ next, step state next → Inevitable step goal next) :
      Inevitable step goal state

variable {State : Type} {state : State}

section

variable {step : State → State → Prop}

theorem Inevitable.mono {stronger weaker : State → Prop}
    (inevitable : Inevitable step stronger state)
    (implies : ∀ state, stronger state → weaker state) : Inevitable step weaker state := by
  induction inevitable with
  | now reached => exact .now (implies _ reached)
  | later possible onwards ih => exact .later possible ih

/-- If every step makes something smaller and the goal is met where no step is possible,
then it will be met. -/
theorem inevitable_of_measure {invariant : State → Prop} (measure : State → Nat)
    (keeps : ∀ state next, invariant state → step state next → invariant next)
    (decreases : ∀ state next, step state next → measure next < measure state)
    (stuck : ∀ state, invariant state → (¬∃ next, step state next) → goal state)
    (base : invariant state) : Inevitable step goal state := by
  generalize bound : measure state = size
  induction size using Nat.strongRecOn generalizing state with
  | _ size ih =>
    by_cases possible : ∃ next, step state next
    · refine .later possible ?_
      intro next taken
      have smaller := decreases state next taken
      rw [bound] at smaller
      exact ih _ smaller (keeps state next base taken) rfl
    · exact .now (stuck state base possible)

theorem Inevitable.of_step {next : State}
    (inevitable : Inevitable step goal state) (notYet : ¬goal state) (taken : step state next) :
    Inevitable step goal next := by
  cases inevitable with
  | now reached => exact absurd reached notYet
  | later possible onwards => exact onwards next taken

theorem not_inevitable {invariant : State → Prop}
    (keeps : ∀ state next, invariant state → step state next → invariant next)
    (unmet : ∀ state, invariant state → ¬goal state) (base : invariant state) :
    ¬Inevitable step goal state := by
  intro inevitable
  induction inevitable with
  | now reached => exact unmet _ base reached
  | later possible onwards ih =>
    rcases possible with ⟨next, taken⟩
    exact ih next taken (keeps _ next base taken)

end

/-- A party reads one message at a time and runs a program in answer to it. Some
of its operations write a message. -/
structure Party (Received Sent : Type) where
  Op : Type
  Response : Op → Type
  Fault : Type
  State : Type
  World : Type
  react : State → Received → Program Op Response Fault State
  handle : (op : Op) → World → Response op × World
  written : Op → Option Sent

namespace Party

variable {Received Sent : Type} (party : Party Received Sent) {α : Type}

abbrev Code (α : Type) := Program party.Op party.Response party.Fault α

def output : party.Code α → party.World → List Sent
  | .done _, _ => []
  | .halt _, _ => []
  | .perform op next, world =>
    (party.written op).toList ++ output (next (party.handle op world).1) (party.handle op world).2

def remaining : party.Code α → party.World → Nat
  | .done _, _ => 0
  | .halt _, _ => 0
  | .perform op next, world =>
    remaining (next (party.handle op world).1) (party.handle op world).2 + 1

/-- Run to its end, the program returns `value` and has written `said`. -/
structure Performs (program : party.Code α) (world : party.World) (said : List Sent)
    (value : α) (after : party.World) : Prop where
  ran : program.run party.handle world = (.ok value, after)
  said : party.output program world = said

variable {party}

theorem performs_done (val : α) (w : party.World) : party.Performs (.done val) w [] val w :=
  ⟨rfl, rfl⟩

section Perform

variable {op : party.Op}

theorem performs_silent (silent : party.written op = none)
    (ans : party.handle op w = (resp, between))
    (rest : party.Performs (next resp) between said val post) :
    party.Performs (.perform op next) w said val post := by
  refine ⟨?_, ?_⟩
  · rw [Program.run_perform, ans]
    exact rest.ran
  · rw [output, silent, ans]
    exact rest.said

theorem performs_written {msg : Sent} (writes : party.written op = some msg)
    (ans : party.handle op w = (resp, between))
    (rest : party.Performs (next resp) between said val post) :
    party.Performs (.perform op next) w (msg :: said) val post := by
  refine ⟨?_, ?_⟩
  · rw [Program.run_perform, ans]
    exact rest.ran
  · rw [output, writes, ans]
    exact congrArg _ rest.said

end Perform

theorem Performs.bind {prog : party.Code α} {cont : α → party.Code β}
    {w between post : party.World} {early late : List Sent} {mid : α} {val : β}
    (head : party.Performs prog w early mid between)
    (tail : party.Performs (cont mid) between late val post) :
    party.Performs (prog >>= cont) w (early ++ late) val post := by
  refine ⟨(Program.run_bind_of_ok _ head.ran).trans tail.ran, ?_⟩
  rw [← head.said, ← tail.said]
  have ran := head.ran
  clear head tail
  induction prog generalizing w with
  | done =>
    rcases ran with ⟨rfl, rfl⟩
    rfl
  | halt => simp at ran
  | perform op next ih =>
    rw [output, List.append_assoc]
    exact congrArg _ (ih _ ran)

/-! ## One party -/

variable (party)

/-- A party in the middle of a reaction: what it still has to do, all it has
written so far, and how many messages it has read. -/
structure Endpoint where
  program : party.Code party.State
  world : party.World
  said : List Sent
  heard : Nat

structure Standing where
  state : party.State
  world : party.World
  said : List Sent
  heard : Nat

variable {party}

/-- What a party does next: one operation, which waits for room if it writes, or
the next message once its reaction to the last one is over. `incoming` is what the
other party has written and `taken` how much of this one's output it has read. -/
inductive Move (cap : Nat) (incoming : List Received) (taken : Nat) :
    party.Endpoint → party.Endpoint → Prop
  | perform {op : party.Op} {next : party.Response op → party.Code party.State}
      {world : party.World} {said : List Sent} {heard : Nat}
      (room : party.written op = none ∨ said.length < taken + cap) :
      Move cap incoming taken ⟨.perform op next, world, said, heard⟩
        ⟨next (party.handle op world).1, (party.handle op world).2,
          said ++ (party.written op).toList, heard⟩
  | react {state : party.State} {world : party.World} {said : List Sent} {heard : Nat}
      {message : Received} (arrived : incoming[heard]? = some message) :
      Move cap incoming taken ⟨.done state, world, said, heard⟩
        ⟨party.react state message, world, said, heard + 1⟩

structure Foresees (endpoint : party.Endpoint) (standing : party.Standing) : Prop where
  ran : endpoint.program.run party.handle endpoint.world = (.ok standing.state, standing.world)
  said : standing.said = endpoint.said ++ party.output endpoint.program endpoint.world
  heard : standing.heard = endpoint.heard

def Standing.advance (standing : party.Standing) (said : List Sent) (state : party.State)
    (world : party.World) : party.Standing :=
  ⟨state, world, standing.said ++ said, standing.heard + 1⟩

def Standing.idle (standing : party.Standing) : party.Endpoint :=
  ⟨.done standing.state, standing.world, standing.said, standing.heard⟩

variable {ep : party.Endpoint} {cap taken : Nat} {incoming : List Received}

/-- A party that is not in the middle of anything is where it is foreseen to be. -/
theorem Foresees.eq_idle {state : party.State} (foresees : Foresees ep standing)
    (between : ep.program = .done state) : ep = standing.idle := by
  rcases ep with ⟨prog, w, said, heard⟩
  rcases standing with ⟨laterState, laterWorld, laterSaid, laterHeard⟩
  rcases foresees with ⟨ran, saidAll, heardAll⟩
  dsimp only at between ran saidAll heardAll
  subst prog
  rcases ran with ⟨rfl, rfl⟩
  rw [output, List.append_nil] at saidAll
  rw [saidAll, heardAll, Standing.idle]

section

variable {next : party.Endpoint} (moved : Move cap incoming taken ep next)

include moved

theorem Move.cases (foresees : Foresees ep standing) :
    (Foresees next standing ∧
        party.remaining next.program next.world < party.remaining ep.program ep.world) ∨
      ∃ msg, incoming[standing.heard]? = some msg ∧ ∀ said state post,
          party.Performs (party.react standing.state msg) standing.world said state post →
            Foresees next (standing.advance said state post) := by
  cases moved with
  | perform =>
    refine .inl ⟨⟨foresees.ran, ?_, foresees.heard⟩, Nat.lt_succ_self _⟩
    rw [foresees.said, output, List.append_assoc]
  | @react state w said heard msg arrived =>
    have idle := foresees.eq_idle rfl
    rw [Standing.idle, Endpoint.mk.injEq, Program.done.injEq] at idle
    rcases idle with ⟨rfl, rfl, rfl, rfl⟩
    refine .inr ⟨msg, arrived, ?_⟩
    intro more next post performs
    exact ⟨performs.ran, congrArg _ performs.said.symm, rfl⟩

theorem Move.heard_le (bound : ep.heard ≤ incoming.length) : next.heard ≤ incoming.length := by
  cases moved with
  | perform => exact bound
  | react arrived => exact (List.getElem?_eq_some_iff.mp arrived).1

theorem Move.said_length_le : ep.said.length ≤ next.said.length := by
  cases moved with
  | perform => simp
  | react => exact Nat.le_refl _

end

/-- A party that cannot move waits for a message that is not there, or for room. -/
theorem Foresees.stuck (foresees : Foresees ep standing)
    (stuck : ¬∃ next, Move cap incoming taken ep next) :
    (ep = standing.idle ∧ incoming.length ≤ standing.heard) ∨ taken + cap ≤ ep.said.length := by
  rcases ep with ⟨prog, w, said, heard⟩
  cases prog with
  | done =>
    refine .inl ⟨foresees.eq_idle rfl, ?_⟩
    have sameHeard : standing.heard = heard := foresees.heard
    by_contra more
    have within : heard < incoming.length := by omega
    exact stuck ⟨_, .react (List.getElem?_eq_getElem within)⟩
  | halt => exact absurd foresees.ran (by simp)
  | perform =>
    by_contra free
    exact stuck ⟨_, .perform (.inr (by
      simp only [not_or, Nat.not_le] at free
      exact free.2))⟩

end Party

/-! ## Both parties -/

variable {Question Answer : Type}

structure Dialogue (x : Party Answer Question) (y : Party Question Answer) where
  left : x.Endpoint
  right : y.Endpoint

namespace Dialogue

variable {x : Party Answer Question} {y : Party Question Answer}

inductive Step (cap : Nat) : Dialogue x y → Dialogue x y → Prop
  | left {left next : x.Endpoint} {right : y.Endpoint}
      (moved : Party.Move cap right.said right.heard left next) :
      Step cap ⟨left, right⟩ ⟨next, right⟩
  | right {left : x.Endpoint} {right next : y.Endpoint}
      (moved : Party.Move cap left.said left.heard right next) :
      Step cap ⟨left, right⟩ ⟨left, next⟩

/-- A plan of the conversation, told in whole reactions: whatever a party reads, it
answers, the plan goes on, and fewer reactions are left. At any time at most one
party has something to read. -/
structure Plan (holds : Nat → x.Standing → y.Standing → Prop) : Prop where
  left {budget : Nat} {left : x.Standing} {right : y.Standing} {message : Answer}
    (planned : holds budget left right) (arrived : right.said[left.heard]? = some message) :
    ∃ fewer said state after, fewer < budget ∧
      x.Performs (x.react left.state message) left.world said state after ∧
      holds fewer (left.advance said state after) right
  right {budget : Nat} {left : x.Standing} {right : y.Standing} {message : Question}
    (planned : holds budget left right) (arrived : left.said[right.heard]? = some message) :
    ∃ fewer said state after, fewer < budget ∧
      y.Performs (y.react right.state message) right.world said state after ∧
      holds fewer left (right.advance said state after)
  halfDuplex {budget : Nat} {left : x.Standing} {right : y.Standing}
    (planned : holds budget left right) :
    right.said.length ≤ left.heard ∨ left.said.length ≤ right.heard

structure Follows (holds : Nat → x.Standing → y.Standing → Prop) (budget : Nat)
    (dialogue : Dialogue x y) (left : x.Standing) (right : y.Standing) :
    Prop where
  planned : holds budget left right
  left : Party.Foresees dialogue.left left
  right : Party.Foresees dialogue.right right
  leftHeard : dialogue.left.heard ≤ dialogue.right.said.length
  rightHeard : dialogue.right.heard ≤ dialogue.left.said.length

def Concluded (holds : Nat → x.Standing → y.Standing → Prop) (dialogue : Dialogue x y) : Prop :=
  ∃ budget left right, holds budget left right ∧ dialogue = ⟨left.idle, right.idle⟩ ∧
    right.said.length ≤ left.heard ∧ left.said.length ≤ right.heard

def remaining (dialogue : Dialogue x y) : Nat :=
  x.remaining dialogue.left.program dialogue.left.world +
    y.remaining dialogue.right.program dialogue.right.world

section Planned

variable {holds : Nat → x.Standing → y.Standing → Prop} {cap budget : Nat}
  {dialogue next : Dialogue x y} {left : x.Standing} {right : y.Standing}

theorem getElem?_said {Received Sent : Type} {party : Party Received Sent}
    {ep : party.Endpoint} {standing : party.Standing} {msg : Sent} {index : Nat}
    (foresees : Party.Foresees ep standing) (arrived : ep.said[index]? = some msg) :
    standing.said[index]? = some msg := by
  rw [foresees.said, List.getElem?_append_left (List.getElem?_eq_some_iff.mp arrived).1, arrived]

theorem Plan.step (plan : Plan holds) (follows : Follows holds budget dialogue left right)
    (stepped : Step cap dialogue next) :
    (Follows holds budget next left right ∧ next.remaining < dialogue.remaining) ∨
      ∃ fewer nextLeft nextRight, fewer < budget ∧
        Follows holds fewer next nextLeft nextRight := by
  cases stepped with
  | left moved =>
    have leftHeard := moved.heard_le follows.leftHeard
    have rightHeard := Nat.le_trans follows.rightHeard moved.said_length_le
    rcases moved.cases follows.left with ⟨foresees, shorter⟩ | ⟨msg, arrived, begins⟩
    · exact .inl ⟨⟨follows.planned, foresees, follows.right, leftHeard, rightHeard⟩,
        Nat.add_lt_add_right shorter _⟩
    rcases plan.left follows.planned (getElem?_said follows.right arrived) with
      ⟨fewer, said, state, post, less, performs, planned⟩
    exact .inr ⟨fewer, _, right, less, planned, begins said state post performs,
      follows.right, leftHeard, rightHeard⟩
  | right moved =>
    have rightHeard := moved.heard_le follows.rightHeard
    have leftHeard := Nat.le_trans follows.leftHeard moved.said_length_le
    rcases moved.cases follows.right with ⟨foresees, shorter⟩ | ⟨msg, arrived, begins⟩
    · exact .inl ⟨⟨follows.planned, follows.left, foresees, leftHeard, rightHeard⟩,
        Nat.add_lt_add_left shorter _⟩
    rcases plan.right follows.planned (getElem?_said follows.left arrived) with
      ⟨fewer, said, state, post, less, performs, planned⟩
    exact .inr ⟨fewer, left, _, less, planned, follows.left,
      begins said state post performs, leftHeard, rightHeard⟩

/-- A conversation that follows a plan cannot get stuck before its conclusion: the
parties cannot both wait for a message, nor both for room. -/
theorem Plan.progress (plan : Plan holds) (pos : 0 < cap)
    (follows : Follows holds budget dialogue left right) :
    Concluded holds dialogue ∨ ∃ next, Step cap dialogue next := by
  by_contra stopped
  rw [not_or] at stopped
  rcases stopped with ⟨unfinished, stuck⟩
  have leftStuck := follows.left.stuck fun ⟨next, moved⟩ => stuck ⟨_, Step.left moved⟩
  have rightStuck := follows.right.stuck fun ⟨next, moved⟩ => stuck ⟨_, Step.right moved⟩
  have leftSaid := congrArg List.length follows.left.said
  have rightSaid := congrArg List.length follows.right.said
  have leftHeard := follows.left.heard
  have rightHeard := follows.right.heard
  rw [List.length_append] at leftSaid rightSaid
  rcases leftStuck with ⟨leftIdle, nothingForLeft⟩ | leftFull <;>
    rcases rightStuck with ⟨rightIdle, nothingForRight⟩ | rightFull
  · apply unfinished
    rw [rightIdle] at nothingForLeft
    rw [leftIdle] at nothingForRight
    refine ⟨budget, left, right, follows.planned, ?_, nothingForLeft, nothingForRight⟩
    rw [← leftIdle, ← rightIdle]
  · omega
  · omega
  · rcases plan.halfDuplex follows.planned with quiet | quiet <;> omega

theorem Plan.inevitable (plan : Plan holds) (pos : 0 < cap)
    (follows : Follows holds budget dialogue left right) :
    Inevitable (Step cap) (Concluded holds) dialogue := by
  -- Reactions left to begin come first, operations left in those under way second.
  induction budget using Nat.strongRecOn generalizing dialogue left right with
  | ind budget reactions =>
    induction measure : dialogue.remaining using Nat.strongRecOn generalizing dialogue with
    | ind n operations =>
      rcases plan.progress pos follows with concluded | possible
      · exact .now concluded
      refine .later possible fun next stepped => ?_
      rcases plan.step follows stepped with ⟨onwards, shorter⟩ |
        ⟨fewer, nextLeft, nextRight, less, onwards⟩
      · exact operations next.remaining (measure ▸ shorter) onwards rfl
      · exact reactions fewer less onwards

theorem Plan.reachable (plan : Plan holds) (follows : Follows holds budget dialogue left right)
    (reached : Relation.ReflTransGen (Step cap) dialogue next) :
    ∃ laterBudget laterLeft laterRight,
      Follows holds laterBudget next laterLeft laterRight := by
  induction reached with
  | refl => exact ⟨budget, left, right, follows⟩
  | tail _ stepped ih =>
    rcases ih with ⟨budget, left, right, follows⟩
    rcases plan.step follows stepped with ⟨onwards, -⟩ | ⟨fewer, nextLeft, nextRight, -, onwards⟩
    · exact ⟨budget, left, right, onwards⟩
    · exact ⟨fewer, nextLeft, nextRight, onwards⟩

end Planned

end Dialogue

end Peerscale
