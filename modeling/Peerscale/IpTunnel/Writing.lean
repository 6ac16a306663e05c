import Peerscale.Foundation.Fairness
import Peerscale.IpTunnel.Carriers

/-! # What becomes of a packet

One call of `write` among the goroutines of the tunnel, with a record of the rounds that it has
begun and of its writes to carriers.
-/

namespace Peerscale.IpTunnel

open Heap Nat

/-- `WriteMsg` on a carrier in some round, and whether it is the first one on this carrier in
this round. -/
structure Attempt where
  round : Nat
  place : Nat
  first : Bool
  accepted : Bool
  deriving DecidableEq

/-- The tunnel, and what the call has done. `copies` are the carriers to which a short packet
is still to be written after the first of them has accepted it. -/
structure Watched where
  tunnel : Tunnel
  rounds : Nat
  attempts : List Attempt
  copies : List Nat

namespace Watched

def fresh (wd : Watched) (place : Nat) : Bool :=
  wd.attempts.all fun attempt => attempt.round ≠ wd.rounds ∨ attempt.place ≠ place

def attempt (wd : Watched) (place : Nat) (accepted : Bool) (copies : List Nat) : Watched :=
  { wd with
    attempts := wd.attempts ++ [⟨wd.rounds, place, wd.fresh place, accepted⟩]
    copies := copies }

/-- The carrier that has accepted a short packet gets it once more, and then the next one, if
there is one. -/
def copiesTo (size place : Nat) (rest : List Nat) : List Nat :=
  match rest with
  | [] => []
  | next :: _ => if size < 100 then [place, next] else []

def note (wd : Watched) (call : Call) (ok : Bool) : Writing → Watched
  | .round =>
    if call.retries + 1 > 48 then wd else { wd with rounds := wd.rounds + 1 }
  | .trying (place :: rest) =>
    wd.attempt place ok (if ok then copiesTo call.size place rest else [])
  | .copying (_ + 1) _ =>
    match wd.copies with
    | [] => wd
    | place :: copies => wd.attempt place ok copies
  | _ => wd

def observe (index : Nat) (wd : Watched) : Tunnel.Action → Watched
  | .step other _ ok _ =>
    if other = index then
      match wd.tunnel.tasks[index]? with
      | some (.write call stage) => wd.note call ok stage
      | _ => wd
    else wd
  | _ => wd

def act (index : Nat) (wd : Watched) (action : Tunnel.Action) : Watched :=
  { wd.observe index action with tunnel := wd.tunnel.act action }

def machine (index : Nat) : Machine Watched Tunnel.Action := ⟨act index⟩

def start (tun : Tunnel) : Watched where
  tunnel := tun
  rounds := 0
  attempts := []
  copies := []

theorem tunnel_run (index : Nat) (wd : Watched) (acts : List Tunnel.Action) :
    ((machine index).run wd acts).tunnel = Tunnel.machine.run wd.tunnel acts := by
  induction acts generalizing wd with
  | nil => rfl
  | cons a acts ih => exact ih (wd.act index a)

end Watched

namespace Tunnel

variable {tun : Tunnel} {index : Nat} {task : Task}

def StepOf (index : Nat) (action : Action) : Prop :=
  ∃ now ok reversed, action = .step index now ok reversed

variable {other : Nat}

theorem getElem?_become_of_ne (apart : other ≠ index) (next : Task) :
    (tun.become other next).tasks[index]? = tun.tasks[index]? :=
  List.getElem?_set_ne apart

theorem getElem?_become_self (found : tun.tasks[index]? = some task) (next : Task) :
    (tun.become index next).tasks[index]? = some next := by
  obtain ⟨bound, -⟩ := List.getElem?_eq_some_iff.mp found
  exact List.getElem?_set_self bound

theorem getElem?_spawn (found : tun.tasks[index]? = some task) (added : Task) :
    (tun.spawn added).tasks[index]? = some task := by
  obtain ⟨bound, -⟩ := List.getElem?_eq_some_iff.mp found
  exact (List.getElem?_append_left bound).trans found

theorem getElem?_write_of_ne (apart : other ≠ index) (found : tun.tasks[index]? = some task)
    (call : Call) (now : Time) (ok rev : Bool) (stage : Writing) :
    (tun.write other call now ok rev stage).tasks[index]? = some task := by
  have stays : ∀ {post : Tunnel}, post.tasks[index]? = some task →
      ∀ next, (post.become other next).tasks[index]? = some task :=
    fun kept next => (getElem?_become_of_ne apart next).trans kept
  cases stage with
  | round =>
    rw [write]
    split <;> exact stays found _
  | trying rest =>
    cases rest with
    | nil => exact stays found _
    | cons =>
      rw [write]
      split
      · split <;> exact stays found _
      · exact stays found _
  | copying copies =>
    cases copies with
    | zero | succ => exact stays found _
  | check | claim => exact stays found _
  | opening stage =>
    cases stage with
    | connect | clear => exact stays found _
    | attach => exact stays (getElem?_spawn found _) _

theorem getElem?_step_of_ne (apart : other ≠ index) (found : tun.tasks[index]? = some task)
    (now : Time) (ok rev : Bool) (stepping : Task) :
    (tun.step other now ok rev stepping).tasks[index]? = some task := by
  have stays : ∀ {post : Tunnel}, post.tasks[index]? = some task →
      ∀ next, (post.become other next).tasks[index]? = some task :=
    fun kept next => (getElem?_become_of_ne apart next).trans kept
  cases stepping with
  | start | pump =>
    rw [step]
    split
    · exact found
    · exact stays found _
  | accept => exact stays (getElem?_spawn found _) _
  | write call stage => exact getElem?_write_of_ne apart found call now ok rev stage
  | opener hub stage =>
    cases stage with
    | connect | clear => exact stays found _
    | attach => exact stays (getElem?_spawn found _) _
  | detach =>
    rw [step]
    split
    · exact getElem?_spawn (stays found _) _
    · exact stays found _
  | returned => exact found

theorem getElem?_act_of_other (found : tun.tasks[index]? = some task)
    (other : ¬StepOf index a) : (tun.act a).tasks[index]? = some task := by
  cases a with
  | writeToPeer | handleStream => exact getElem?_spawn found _
  | step stepping now ok rev =>
    have apart : stepping ≠ index := by
      rintro rfl
      exact other ⟨now, ok, rev, rfl⟩
    rw [act]
    split
    · exact found
    · exact getElem?_step_of_ne apart found now ok rev _
  | startSweep =>
    rw [act]
    split <;> exact found
  | reap =>
    rw [act, reap]
    split <;> exact found

end Tunnel

def Writing.weight : Writing → Nat
  | .round => 0
  | .opening .clear => 1
  | .opening .attach => 2
  | .opening .connect => 3
  | .claim => 4
  | .check => 5
  | .copying copies _ => copies
  | .trying rest => 6 + rest.length

def Writing.pauses : Writing → Bool
  | .trying rest => rest.isEmpty
  | .copying _ _ => false
  | _ => true

inductive Turn (heap : Heap) (call : Call) (ok : Bool) : Writing → Task → Prop
  | gaveUp (many : call.retries + 1 > 48) : Turn heap call ok .round (.returned none)
  | began (few : ¬call.retries + 1 > 48) {live : List Nat}
      (known : ∀ place ∈ live, place < heap.carriers.length) :
      Turn heap call ok .round
        (.write { call with retries := call.retries + 1 } (Tunnel.afterTrying live))
  | failed {place : Nat} {rest : List Nat} (refused : ok = false) :
      Turn heap call ok (.trying (place :: rest)) (.write call (Tunnel.afterTrying rest))
  | delivered {place : Nat} {rest : List Nat} (taken : ok)
      (single : ¬(call.size < 100 ∧ rest ≠ [])) :
      Turn heap call ok (.trying (place :: rest)) (.returned (some 1))
  | copies {place : Nat} {rest : List Nat} (taken : ok)
      (more : call.size < 100 ∧ rest ≠ []) :
      Turn heap call ok (.trying (place :: rest)) (.write call (.copying 2 1))
  | copied {copies accepted : Nat} :
      Turn heap call ok (.copying (copies + 1) accepted)
        (.write call (.copying copies (if ok then accepted + 1 else accepted)))
  | finished {accepted : Nat} :
      Turn heap call ok (.copying 0 accepted) (.returned (some accepted))
  | moved {stage next : Writing} (pauses : stage.pauses) (goesOn : next.pauses)
      (nearer : next.weight < stage.weight) : Turn heap call ok stage (.write call next)

variable {place : Nat}

theorem Heap.lt_of_mem_liveCarriers (mem : place ∈ Tunnel.liveCarriers heap hub rev) :
    place < heap.carriers.length := by
  have live : heap.Live place := by
    rw [Tunnel.liveCarriers] at mem
    cases rev with
    | true => simpa using (List.mem_filter.mp (List.mem_reverse.mp mem)).2
    | false => simpa using (List.mem_filter.mp mem).2
  obtain ⟨carrier, found, -⟩ := live
  exact (List.getElem?_eq_some_iff.mp found).1

namespace Tunnel

variable {tun : Tunnel} {index : Nat} {call : Call} {stage : Writing}

theorem act_of_write (found : tun.tasks[index]? = some (.write call stage)) (now : Time)
    (ok rev : Bool) :
    tun.act (.step index now ok rev) =
      tun.write index call now ok rev stage := by
  rw [act, found]
  rfl

theorem exists_turn (found : tun.tasks[index]? = some (.write call stage)) (now : Time)
    (ok rev : Bool) :
    ∃ next, Turn tun.heap call ok stage next ∧
      (tun.act (.step index now ok rev)).tasks[index]? = some next := by
  rw [act_of_write found]
  cases stage with
  | round =>
    rw [write]
    split
    · rename_i many
      exact ⟨_, .gaveUp many, getElem?_become_self found _⟩
    rename_i few
    exact ⟨_, .began few fun place mem => lt_of_mem_liveCarriers mem, getElem?_become_self found _⟩
  | trying rest =>
    cases rest with
    | nil => exact ⟨_, .moved rfl rfl (by decide), getElem?_become_self found (.write call .check)⟩
    | cons place rest =>
      rw [write]
      split
      · rename_i taken
        split
        · rename_i more
          exact ⟨_, .copies taken more, getElem?_become_self found _⟩
        · rename_i single
          exact ⟨_, .delivered taken single, getElem?_become_self found _⟩
      · rename_i refused
        exact ⟨_, .failed (Bool.of_not_eq_true refused), getElem?_become_self found _⟩
  | copying copies =>
    cases copies with
    | zero => exact ⟨_, .finished, getElem?_become_self found _⟩
    | succ => exact ⟨_, .copied, getElem?_become_self found _⟩
  | check =>
    refine ⟨_, ?_, getElem?_become_self found _⟩
    split <;> exact .moved rfl rfl (by decide)
  | claim => exact ⟨_, .moved rfl rfl (by decide), getElem?_become_self found _⟩
  | opening stage =>
    cases stage with
    | connect =>
      refine ⟨_, ?_, getElem?_become_self found _⟩
      split <;> exact .moved rfl rfl (by decide)
    | attach =>
      exact ⟨_, .moved rfl rfl (by decide), getElem?_become_self (getElem?_spawn found _) _⟩
    | clear => exact ⟨_, .moved rfl rfl (by decide), getElem?_become_self found _⟩

def Writes (index : Nat) (tun : Tunnel) : Prop :=
  ∃ call stage, tun.tasks[index]? = some (.write call stage)

def rank (index : Nat) (tun : Tunnel) : Nat ×ₗ Nat :=
  match tun.tasks[index]? with
  | some (.write call stage) => toLex (49 - call.retries, stage.weight)
  | _ => toLex (0, 0)

theorem rank_of_write (found : tun.tasks[index]? = some (.write call stage)) :
    tun.rank index = toLex (49 - call.retries, stage.weight) := by
  rw [rank, found]

theorem weight_afterTrying (rest : List Nat) : (afterTrying rest).weight < 7 + rest.length := by
  cases rest with
  | nil => decide
  | cons =>
    rw [afterTrying, Writing.weight]
    · omega
    · exact nofun

theorem turn_nearer {heap : Heap} {ok : Bool} (turn : Turn heap call ok stage next) :
    (∃ res, next = .returned res) ∨ ∃ later post, next = .write later post ∧
      toLex (49 - later.retries, post.weight) < toLex (49 - call.retries, stage.weight) := by
  have sameRound : ∀ {post : Writing}, post.weight < stage.weight →
      toLex (49 - call.retries, post.weight) < toLex (49 - call.retries, stage.weight) :=
    fun lower => Prod.Lex.toLex_lt_toLex.mpr (.inr ⟨rfl, lower⟩)
  cases turn with
  | gaveUp | delivered | finished => exact .inl ⟨_, rfl⟩
  | began =>
    refine .inr ⟨_, _, rfl, Prod.Lex.toLex_lt_toLex.mpr (.inl ?_)⟩
    dsimp only
    omega
  | failed refused =>
    rename_i place rest
    refine .inr ⟨_, _, rfl, sameRound ?_⟩
    have lower := weight_afterTrying rest
    rw [Writing.weight, List.length_cons]
    omega
  | copies =>
    refine .inr ⟨_, _, rfl, sameRound ?_⟩
    rw [Writing.weight, Writing.weight]
    omega
  | copied => exact .inr ⟨_, _, rfl, sameRound (lt_succ_self _)⟩
  | moved pauses goesOn nearer => exact .inr ⟨_, _, rfl, sameRound nearer⟩

theorem write_ends {schedule : Nat → Action} (recurs : Machine.Recurs (StepOf index) schedule)
    (found : tun.tasks[index]? = some (.write call stage)) :
    ∃ time res, (machine.runFor tun schedule time).tasks[index]? = some (.returned res) := by
  have ends : ∃ time, ∃ res, (machine.runFor tun schedule time).tasks[index]? =
      some (.returned res) := by
    apply @Machine.eventually_of_rank _ _ machine tun schedule (StepOf index) (Writes index)
      (fun tun => ∃ res, tun.tasks[index]? = some (.returned res)) _ (· < ·)
      (rank index) wellFounded_lt
    · rintro tun a ⟨call, stage, found⟩ ⟨now, ok, rev, rfl⟩
      obtain ⟨next, turn, becomes⟩ := exists_turn found now ok rev
      rcases turn_nearer turn with ⟨res, rfl⟩ | ⟨later, post, rfl, lower⟩
      · exact .inl ⟨res, becomes⟩
      refine .inr ⟨⟨later, post, becomes⟩, ?_⟩
      rw [machine_act, rank_of_write becomes, rank_of_write found]
      exact lower
    · rintro tun a ⟨call, stage, found⟩ other
      have same := getElem?_act_of_other found other
      refine ⟨⟨call, stage, same⟩, ?_⟩
      rw [machine_act, rank_of_write same, rank_of_write found]
    · exact recurs
    · exact ⟨call, stage, found⟩
  exact ends

end Tunnel

/-! ## Dead carriers -/

def Heap.Dead (heap : Heap) (place : Nat) : Prop :=
  ∃ carrier, heap.carriers[place]? = some carrier ∧ carrier.dead

theorem Heap.dead_iff {heap : Heap} :
    heap.Dead place ↔ place < heap.carriers.length ∧ ¬heap.Live place := by
  rw [Dead, Live]
  cases found : heap.carriers[place]? with
  | none =>
    have outside := List.getElem?_eq_none_iff.mp found
    refine iff_of_false (by simp) ?_
    omega
  | some =>
    have inside := (List.getElem?_eq_some_iff.mp found).1
    simp [inside]

structure Heap.Ages (before after : Heap) : Prop where
  length : before.carriers.length ≤ after.carriers.length
  live : ∀ place < before.carriers.length, after.Live place → before.Live place

theorem Heap.Ages.dead (ages : Ages pre post) (dead : pre.Dead place) : post.Dead place := by
  obtain ⟨inside, notLive⟩ := dead_iff.mp dead
  refine dead_iff.mpr ⟨lt_of_lt_of_le inside ages.length, ?_⟩
  intro live
  exact notLive (ages.live place inside live)

theorem Tunnel.ages_act (tun : Tunnel) (a : Tunnel.Action) : tun.heap.Ages (tun.act a).heap := by
  rcases (Tunnel.effect_act tun a).shrinks_or_attach with
    shrinks | ⟨hub, dir, now, -, -, attached⟩
  · exact ⟨le_of_eq shrinks.length.symm, fun place _ live => shrinks.live place live⟩
  rw [attached]
  constructor
  · rw [carriers_attach, List.length_append, length_markDead]
    exact le_add_right _ _
  · intro place inside live
    exact ((live_attach inside).mp live).1

namespace Watched

variable {wd : Watched} {index hub size : Nat}

def accepted (wd : Watched) : Nat := wd.attempts.countP Attempt.accepted

/-- What `write` returns tells whether the packet has been accepted. A long packet is accepted
once at most, a short one three times. -/
structure Outcome (size accepted : Nat) (result : Option Nat) : Prop where
  returnsNil : result.isSome ↔ 0 < accepted
  long : 100 ≤ size → accepted ≤ 1
  short : accepted ≤ 3

inductive Stands (hub size : Nat) (wd : Watched) : Task → Prop
  | unaccepted {stage : Writing} (writes : ∀ copies accepted, stage ≠ .copying copies accepted)
      (none : wd.accepted = 0) :
      Stands hub size wd (.write ⟨hub, size, wd.rounds⟩ stage)
  | copying {copies accepted : Nat} (short : size < 100) (count : wd.accepted = accepted)
      (positive : 0 < accepted) (few : accepted + copies ≤ 3)
      (left : wd.copies.length = copies) :
      Stands hub size wd (.write ⟨hub, size, wd.rounds⟩ (.copying copies accepted))
  | returned {result : Option Nat} (outcome : Outcome size wd.accepted result) :
      Stands hub size wd (.returned result)

def places : Task → List Nat
  | .write _ (.trying rest) => rest
  | _ => []

structure Recorded (index hub size : Nat) (wd : Watched) : Prop where
  stands : ∃ task, wd.tunnel.tasks[index]? = some task ∧ Stands hub size wd task ∧
    ∀ place ∈ places task, place < wd.tunnel.heap.carriers.length
  rounds : wd.rounds ≤ 48
  copies : ∀ place ∈ wd.copies, place < wd.tunnel.heap.carriers.length

variable {call : Call} {stage : Writing} {place : Nat} {next : Task} {ok : Bool}

theorem recorded_start {tun : Tunnel}
    (begins : tun.tasks[index]? = some (.write ⟨hub, size, 0⟩ .round)) :
    Recorded index hub size (start tun) where
  stands := ⟨_, begins, .unaccepted (fun _ _ => nofun) rfl, nofun⟩
  rounds := zero_le _
  copies := nofun

theorem observe_of_other (other : ¬Tunnel.StepOf index a) : wd.observe index a = wd := by
  cases a with
  | step stepping now ok rev =>
    refine if_neg ?_
    rintro rfl
    exact other ⟨now, ok, rev, rfl⟩
  | _ => rfl

theorem observe_of_write (found : wd.tunnel.tasks[index]? = some (.write call stage))
    (now : Time) (ok rev : Bool) :
    wd.observe index (.step index now ok rev) =
      wd.note call ok stage := by
  rw [observe, if_pos rfl, found]

theorem observe_of_returned (found : wd.tunnel.tasks[index]? = some (.returned res))
    (now : Time) (ok rev : Bool) : wd.observe index (.step index now ok rev) = wd := by
  rw [observe, if_pos rfl, found]

theorem accepted_attempt (place : Nat) (taken : Bool) (copies : List Nat) :
    (wd.attempt place taken copies).accepted = if taken then wd.accepted + 1 else wd.accepted := by
  rw [accepted, accepted, attempt, List.countP_append]
  cases taken with
  | true | false => rfl

theorem note_of_pauses (pauses : stage.pauses) (busy : stage ≠ .round) (call : Call)
    (ok : Bool) : wd.note call ok stage = wd := by
  cases stage with
  | round => exact absurd rfl busy
  | trying rest =>
    cases rest with
    | nil => rfl
    | cons => cases pauses
  | copying => cases pauses
  | check | claim | opening => rfl

theorem Stands.with_tunnel (stands : Stands hub size wd task) (tun : Tunnel) :
    Stands hub size { wd with tunnel := tun } task := by
  cases stands with
  | unaccepted writes none => exact @unaccepted _ _ { wd with tunnel := tun } _ writes none
  | copying short n pos few left =>
    exact @copying _ _ { wd with tunnel := tun } _ _ short n pos few left
  | returned outcome => exact @returned _ _ { wd with tunnel := tun } _ outcome

theorem afterTrying_ne_copying (rest : List Nat) (copies accepted : Nat) :
    Tunnel.afterTrying rest ≠ .copying copies accepted := by
  cases rest with
  | nil | cons => exact nofun

theorem mem_places_afterTrying (mem : place ∈ places (.write call (Tunnel.afterTrying rest))) :
    place ∈ rest := by
  cases rest with
  | nil | cons => exact mem

theorem mem_copiesTo (mem : other ∈ copiesTo size place rest) : other ∈ place :: rest := by
  cases rest with
  | nil => cases mem
  | cons =>
    rw [copiesTo] at mem
    split at mem
    · simp only [List.mem_cons, List.not_mem_nil, or_false] at mem ⊢
      exact mem.imp_right .inl
    · cases mem

theorem stands_of_unaccepted (writes : ∀ copies accepted, stage ≠ .copying copies accepted)
    (none : wd.accepted = 0) (turn : Turn heap ⟨hub, size, wd.rounds⟩ ok stage next) :
    Stands hub size (wd.note ⟨hub, size, wd.rounds⟩ ok stage) next := by
  cases turn with
  | gaveUp many =>
    rw [note, if_pos many]
    exact .returned ⟨by simp [none], fun _ => by omega, by omega⟩
  | began few =>
    rw [note, if_neg few]
    exact @Stands.unaccepted _ _ { wd with rounds := wd.rounds + 1 } _
      (afterTrying_ne_copying _) none
  | failed refused =>
    rename_i place rest
    subst refused
    have n : (wd.attempt place false []).accepted = 0 := by
      rw [accepted_attempt]
      exact none
    exact @Stands.unaccepted _ _ (wd.attempt place false []) _ (afterTrying_ne_copying _) n
  | delivered taken single =>
    rename_i place rest
    subst taken
    have n : (wd.attempt place true (copiesTo size place rest)).accepted = 1 := by
      rw [accepted_attempt, none]
      rfl
    refine @Stands.returned _ _ (wd.attempt place true (copiesTo size place rest)) _ ?_
    rw [n]
    exact ⟨by decide, fun _ => le_refl 1, by decide⟩
  | copies taken more =>
    rename_i place rest
    subst taken
    have n : (wd.attempt place true (copiesTo size place rest)).accepted = 1 := by
      rw [accepted_attempt, none]
      rfl
    obtain ⟨post, later, rfl⟩ := List.exists_cons_of_ne_nil more.2
    have left : (copiesTo size place (post :: later)).length = 2 := by
      rw [copiesTo, if_pos more.1]
      rfl
    exact @Stands.copying _ _ (wd.attempt place true (copiesTo size place (post :: later)))
      _ _ more.1 n (by decide) (by decide) left
  | copied | finished => exact absurd rfl (writes _ _)
  | moved pauses goesOn nearer =>
    have busy : stage ≠ .round := by
      rintro rfl
      exact absurd nearer (not_lt_zero _)
    rw [note_of_pauses pauses busy]
    refine .unaccepted ?_ none
    rintro copies accepted rfl
    cases goesOn

theorem stands_of_copying {copies accepted : Nat} (stands : Stands hub size wd
      (.write ⟨hub, size, wd.rounds⟩ (.copying copies accepted)))
    (turn : Turn heap ⟨hub, size, wd.rounds⟩ ok (.copying copies accepted) next) :
    Stands hub size (wd.note ⟨hub, size, wd.rounds⟩ ok (.copying copies accepted)) next := by
  cases stands with
  | unaccepted writes => exact absurd rfl (writes _ _)
  | copying short n pos few left =>
    cases turn with
    | copied =>
      rename_i copies
      obtain ⟨place, later, isCopies⟩ := List.exists_cons_of_length_eq_add_one left
      have counted := @accepted_attempt wd place ok later
      rw [n] at counted
      have less : later.length = copies := by
        rw [isCopies] at left
        exact succ.inj left
      rw [note, isCopies]
      refine @Stands.copying _ _ (wd.attempt place ok later) _ _ short counted ?_ ?_ less
      · split
        · omega
        · exact pos
      · split <;> omega
    | finished =>
      change Stands hub size wd (.returned (some accepted))
      exact .returned ⟨iff_of_true rfl (by omega), fun long => by omega, by omega⟩
    | moved pauses => cases pauses

theorem rounds_note (few : wd.rounds ≤ 48) (ok : Bool) (stage : Writing) :
    (wd.note ⟨hub, size, wd.rounds⟩ ok stage).rounds ≤ 48 := by
  cases stage with
  | round =>
    rw [note]
    split
    · exact few
    rename_i notLast
    dsimp only at notLast ⊢
    omega
  | trying rest =>
    cases rest with
    | nil | cons => exact few
  | copying copies =>
    cases copies with
    | zero => exact few
    | succ =>
      rw [note]
      split <;> exact few
  | check | claim | opening => exact few

theorem mem_copies_note (mem : place ∈ (wd.note call ok stage).copies) :
    place ∈ wd.copies ∨ place ∈ places (.write call stage) := by
  cases stage with
  | round =>
    rw [note] at mem
    split at mem <;> exact .inl mem
  | trying rest =>
    cases rest with
    | nil => exact .inl mem
    | cons =>
      cases ok with
      | true => exact .inr (mem_copiesTo mem)
      | false => cases mem
  | copying copies accepted =>
    cases copies with
    | zero => exact .inl mem
    | succ copies =>
      rw [note] at mem
      split at mem
      · exact .inl mem
      rename_i x later isCopies
      rw [isCopies]
      exact .inl (List.mem_cons_of_mem _ mem)
  | check | claim | opening => exact .inl mem

theorem mem_places_of_turn (turn : Turn heap call ok stage next) (mem : place ∈ places next) :
    place ∈ places (.write call stage) ∨ place < heap.carriers.length := by
  cases turn with
  | gaveUp | delivered | copies | copied | finished => cases mem
  | began few known => exact .inr (known place (mem_places_afterTrying mem))
  | failed => exact .inl (List.mem_cons_of_mem _ (mem_places_afterTrying mem))
  | moved pauses goesOn nearer =>
    rename_i next
    cases next with
    | trying rest =>
      cases rest with
      | nil => cases mem
      | cons => cases goesOn
    | _ => cases mem

theorem Recorded.act (noted : Recorded index hub size wd) (a : Tunnel.Action) :
    Recorded index hub size (wd.act index a) := by
  obtain ⟨⟨task, found, stands, known⟩, few, copies⟩ := noted
  have ages := (Tunnel.ages_act wd.tunnel a).length
  by_cases mine : Tunnel.StepOf index a
  · obtain ⟨now, ok, rev, rfl⟩ := mine
    have writing : ∀ {stage}, task = .write ⟨hub, size, wd.rounds⟩ stage →
        (∀ {next}, Turn wd.tunnel.heap ⟨hub, size, wd.rounds⟩ ok stage next →
          Stands hub size (wd.note ⟨hub, size, wd.rounds⟩ ok stage) next) →
        Recorded index hub size (wd.act index (.step index now ok rev)) := by
      rintro stage rfl follows
      obtain ⟨next, turn, becomes⟩ := Tunnel.exists_turn found now ok rev
      rw [Watched.act, observe_of_write found]
      refine ⟨⟨next, becomes, (follows turn).with_tunnel _, ?_⟩, rounds_note few _ _, ?_⟩
      · intro place mem
        refine lt_of_lt_of_le ?_ ages
        exact (mem_places_of_turn turn mem).elim (known place) id
      intro place mem
      refine lt_of_lt_of_le ?_ ages
      exact (mem_copies_note mem).elim (copies place) (known place)
    cases stands with
    | unaccepted writes none => exact writing rfl (stands_of_unaccepted writes none)
    | copying short n pos few left =>
      exact writing rfl (stands_of_copying (.copying short n pos few left))
    | returned outcome =>
      have same : wd.tunnel.act (.step index now ok rev) = wd.tunnel := by
        rw [Tunnel.act, found]
        rfl
      rw [Watched.act, observe_of_returned found, same]
      exact ⟨⟨_, found, .returned outcome, known⟩, few, copies⟩
  rw [Watched.act, observe_of_other mine]
  refine ⟨⟨task, Tunnel.getElem?_act_of_other found mine, stands.with_tunnel _, ?_⟩, few, ?_⟩
  · intro place mem
    exact lt_of_lt_of_le (known place mem) ages
  · intro place mem
    exact lt_of_lt_of_le (copies place mem) ages

/-! ## Failed carriers -/

def FailedDead (wd : Watched) : Prop :=
  ∀ attempt ∈ wd.attempts, attempt.first → attempt.accepted = false →
    wd.tunnel.heap.Dead attempt.place

/-- If a carrier gets its first packet of the round as a copy, it accepts it, or was marked as
dead before. -/
def CopiesTaken (index : Nat) (wd : Watched) : Tunnel.Action → Prop
  | .step stepping _ ok _ => stepping = index → ok = false →
      ∀ call copies accepted place later,
        wd.tunnel.tasks[index]? = some (.write call (.copying (copies + 1) accepted)) →
        wd.copies = place :: later → wd.fresh place → wd.tunnel.heap.Dead place
  | _ => True

theorem FailedDead.ages (failed : wd.FailedDead) {post : Watched}
    (attempts : post.attempts = wd.attempts)
    (ages : wd.tunnel.heap.Ages post.tunnel.heap) : post.FailedDead := by
  intro attempt mem isFirst refused
  rw [attempts] at mem
  exact ages.dead (failed attempt mem isFirst refused)

theorem failedDead_attempt_iff (failed : wd.FailedDead) {tun : Tunnel}
    (ages : wd.tunnel.heap.Ages tun.heap) (place : Nat) (taken : Bool)
    (copies : List Nat) :
    FailedDead { wd.attempt place taken copies with tunnel := tun } ↔
      (taken = false → wd.fresh place → tun.heap.Dead place) := by
  constructor
  · intro dead refused isFirst
    exact dead _ (List.mem_append_right _ List.mem_cons_self) isFirst refused
  intro dead attempt mem isFirst refused
  rcases List.mem_append.mp mem with pre | added
  · exact ages.dead (failed attempt pre isFirst refused)
  rw [List.mem_singleton] at added
  subst added
  exact dead refused isFirst

theorem dead_of_failed
    (found : wd.tunnel.tasks[index]? = some (.write call (.trying (place :: rest))))
    (known : place < wd.tunnel.heap.carriers.length) :
    (wd.tunnel.act (.step index now false rev)).heap.Dead place := by
  have marked : (wd.tunnel.act (.step index now false rev)).heap =
      wd.tunnel.heap.markDead [place] := by
    rw [Tunnel.act_of_write found]
    rfl
  rw [marked, dead_iff, length_markDead, live_markDead]
  refine ⟨known, ?_⟩
  rintro ⟨-, spared⟩
  exact spared List.mem_cons_self

theorem copiesTaken_of_stage (found : wd.tunnel.tasks[index]? = some task)
    (otherwise : ∀ call copies accepted, task ≠ .write call (.copying (copies + 1) accepted)) :
    wd.CopiesTaken index a := by
  cases a with
  | step =>
    intro _ _ call copies accepted place later isCopying
    rw [found, Option.some.injEq] at isCopying
    exact absurd isCopying (otherwise call copies accepted)
  | _ => trivial

theorem failedDead_write_iff (found : wd.tunnel.tasks[index]? = some (.write call stage))
    (stands : Stands hub size wd (.write call stage))
    (known : ∀ place ∈ places (.write call stage), place < wd.tunnel.heap.carriers.length)
    (failed : wd.FailedDead) (now : Time) (ok rev : Bool) :
    FailedDead { wd.note call ok stage with
        tunnel := wd.tunnel.act (.step index now ok rev) } ↔
      wd.CopiesTaken index (.step index now ok rev) := by
  have ages := Tunnel.ages_act wd.tunnel (.step index now ok rev)
  have quiet : (wd.note call ok stage).attempts = wd.attempts →
      (∀ copies accepted, stage ≠ .copying (copies + 1) accepted) →
      (FailedDead { wd.note call ok stage with
          tunnel := wd.tunnel.act (.step index now ok rev) } ↔
        wd.CopiesTaken index (.step index now ok rev)) := by
    intro attempts otherwise
    refine iff_of_true (failed.ages attempts ages) (copiesTaken_of_stage found ?_)
    rintro call copies accepted isCopying
    exact otherwise copies accepted (Task.write.inj isCopying).2
  cases stage with
  | round =>
    refine quiet ?_ nofun
    rw [note]
    split <;> rfl
  | trying rest =>
    cases rest with
    | nil => exact quiet rfl nofun
    | cons place =>
      rw [note, failedDead_attempt_iff failed ages]
      refine iff_of_true ?_ (copiesTaken_of_stage found nofun)
      rintro rfl -
      exact dead_of_failed found (known place List.mem_cons_self)
  | copying copies accepted =>
    cases copies with
    | zero => exact quiet rfl nofun
    | succ copies =>
      cases stands with
      | unaccepted writes => exact absurd rfl (writes _ _)
      | copying short n pos few left =>
        obtain ⟨place, later, isCopies⟩ := List.exists_cons_of_length_eq_add_one left
        have same : (wd.tunnel.act (.step index now ok rev)).heap =
            wd.tunnel.heap := by
          rw [Tunnel.act_of_write found]
          rfl
        rw [note, isCopies, failedDead_attempt_iff failed ages, same]
        constructor
        · intro dead _ refused call copies accepted other others _ isOther isFirst
          rw [isCopies, List.cons.injEq] at isOther
          rw [← isOther.1] at isFirst ⊢
          exact dead refused isFirst
        · intro taken refused isFirst
          exact taken rfl refused _ _ _ _ _ found isCopies isFirst
  | check | claim | opening => exact quiet rfl nofun

theorem failedDead_act_iff (noted : Recorded index hub size wd)
    (failed : wd.FailedDead) (a : Tunnel.Action) :
    (wd.act index a).FailedDead ↔ wd.CopiesTaken index a := by
  obtain ⟨⟨task, found, stands, known⟩, -⟩ := noted
  have ages := Tunnel.ages_act wd.tunnel a
  rw [Watched.act]
  by_cases mine : Tunnel.StepOf index a
  · obtain ⟨now, ok, rev, rfl⟩ := mine
    cases stands with
    | unaccepted writes none =>
      rw [observe_of_write found]
      exact failedDead_write_iff found (.unaccepted writes none) known failed now ok rev
    | copying short n pos few left =>
      rw [observe_of_write found]
      exact failedDead_write_iff found (.copying short n pos few left) known failed now ok rev
    | returned =>
      rw [observe_of_returned found]
      exact iff_of_true (failed.ages rfl ages) (copiesTaken_of_stage found nofun)
  rw [observe_of_other mine]
  refine iff_of_true (failed.ages rfl ages) ?_
  cases a with
  | step stepping now ok rev =>
    rintro rfl
    exact absurd ⟨now, ok, rev, rfl⟩ mine
  | _ => trivial

/-- A call of `write` comes to an end after 48 rounds at the most, and what it returns tells
whether a carrier has accepted the packet. The carriers that fail are marked as dead exactly
if no copy of a short packet is refused by a carrier that has not been tried before. -/
theorem write_outcome_iff (tunnel : Tunnel) (index hub size : Nat)
    (begins : tunnel.tasks[index]? = some (.write ⟨hub, size, 0⟩ .round)) :
    (∀ schedule, Machine.Recurs (Tunnel.StepOf index) schedule →
        ∃ time result, (Tunnel.machine.runFor tunnel schedule time).tasks[index]? =
          some (.returned result)) ∧
      ∀ actions, ((machine index).run (start tunnel) actions).rounds ≤ 48 ∧
          (∀ result, (Tunnel.machine.run tunnel actions).tasks[index]? = some (.returned result) →
            Outcome size ((machine index).run (start tunnel) actions).accepted result) ∧
          ((machine index).Always FailedDead (start tunnel) actions ↔
            (machine index).Obeys (CopiesTaken index) (start tunnel) actions) := by
  refine ⟨fun schedule recurs => Tunnel.write_ends recurs begins, ?_⟩
  intro actions
  have recorded : Recorded index hub size ((machine index).run (start tunnel) actions) :=
    Machine.invariant (recorded_start begins)
      (fun watched action recorded => Recorded.act recorded action) actions
  refine ⟨recorded.rounds, ?_, ?_⟩
  · intro result returned
    obtain ⟨task, found, stands, -⟩ := recorded.stands
    rw [tunnel_run] at found
    have isReturned : task = .returned result := Option.some.inj (found.symm.trans returned)
    subst isReturned
    cases stands with
    | returned outcome => exact outcome
  apply @Machine.always_iff_obeys _ _ (machine index) (Recorded index hub size)
  · intro watched action recorded
    exact Recorded.act recorded action
  · intro watched action recorded failed
    exact failedDead_act_iff recorded failed action
  · exact recorded_start begins
  · exact nofun

def twoCarriers : Tunnel :=
  Tunnel.machine.run .start
    [.handleStream (ascii "peer"), .step 0 0 true false, .step 0 0 true false,
      .step 1 0 false false, .step 1 0 true false, .step 2 0 true false, .step 2 0 true false,
      .step 2 0 true false, .handleStream (ascii "peer"), .step 4 0 true false,
      .step 4 0 true false, .writeToPeer (ascii "peer") 40, .step 6 0 true false]

def refusedCopy : List Tunnel.Action :=
  [.step 6 0 true false, .step 6 0 true false, .step 6 0 true false, .step 6 0 false false,
    .step 6 0 true false]

theorem twoCarriers_begins : twoCarriers.tasks[6]? = some (.write ⟨0, 40, 0⟩ .round) := by
  rfl

theorem twoCarriers_outcome :
    twoCarriers.tasks[6]? = some (.write ⟨0, 40, 0⟩ .round) ∧
      Outcome 40 ((machine 6).run (start twoCarriers) refusedCopy).accepted (some 2) :=
  ⟨twoCarriers_begins,
    ((write_outcome_iff twoCarriers 6 0 40 twoCarriers_begins).2 refusedCopy).2.1 (some 2) rfl⟩

theorem refusedCopy_alive :
    ((machine 6).run (start twoCarriers) refusedCopy).attempts =
        [⟨1, 1, true, true⟩, ⟨1, 1, false, true⟩, ⟨1, 2, true, false⟩] ∧
      (Tunnel.machine.run twoCarriers refusedCopy).tasks[6]? = some (.returned (some 2)) ∧
      (Tunnel.machine.run twoCarriers refusedCopy).heap.carriers[2]? = some ⟨0, .inbound, false⟩ ∧
      ¬(machine 6).Always FailedDead (start twoCarriers) refusedCopy := by
  have alive : (Tunnel.machine.run twoCarriers refusedCopy).heap.carriers[2]? =
      some ⟨0, .inbound, false⟩ := by
    rfl
  refine ⟨rfl, rfl, alive, ?_⟩
  intro always
  have failed := always refusedCopy [] (List.append_nil _).symm ⟨1, 2, true, false⟩
  obtain ⟨carrier, found, dead⟩ := failed (by decide +kernel) rfl rfl
  rw [tunnel_run] at found
  cases Option.some.inj (alive.symm.trans found)
  cases dead

end Watched

end Peerscale.IpTunnel
