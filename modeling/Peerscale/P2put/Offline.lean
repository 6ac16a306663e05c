import Mathlib.Data.List.Chain
import Peerscale.Foundation.Machine
import Peerscale.Foundation.Time

/-! # Online or offline

`evaluate` looks for connections every 1.5 s. The state follows what it finds once that has
stayed the same for 4.5 s.
-/

namespace Peerscale.P2put

inductive OfflineState
  | offline
  | online
  deriving DecidableEq

inductive Direction
  | unknown
  | inbound
  | outbound
  deriving DecidableEq

def evaluateTick : Duration := 1500 * millisecond
def stickCount : Int := 3
def confirmDur : Duration := evaluateTick * stickCount

structure Observation where
  first : List Direction
  second : List Direction
  now : Time

def Observation.active (obs : Observation) : Nat :=
  (if .outbound ∈ obs.first then 1 else 0) + (if .inbound ∈ obs.second then 1 else 0)

def Observation.connected (obs : Observation) : Bool := obs.active > 0

/-- The zero time, which no clock shows, is `none`. `reports` has the arguments of the calls of
`OnChange`. -/
structure OfflineDetector where
  state : OfflineState
  goodSince : Option Time
  badSince : Option Time
  reports : List OfflineState

namespace OfflineDetector

def newOfflineDetector : OfflineDetector := ⟨.offline, none, none, []⟩

def confirmed (now : Time) (since : Option Time) : Bool :=
  since.any fun start => Time.sub now start ≥ confirmDur

def evaluate (d : OfflineDetector) (obs : Observation) : OfflineDetector :=
  let goodSince := if obs.connected then some (d.goodSince.getD obs.now) else none
  let badSince := if obs.connected then none else some (d.badSince.getD obs.now)
  let target := if confirmed obs.now goodSince then .online
    else if confirmed obs.now badSince then .offline
    else d.state
  ⟨target, goodSince, badSince, if target ≠ d.state then d.reports ++ [target] else d.reports⟩

def machine : Machine OfflineDetector Observation := ⟨evaluate⟩

end OfflineDetector

structure Stretch where
  connected : Bool
  first : Time
  last : Time

namespace Stretch

def long (stretch : Stretch) : Bool := stretch.last - stretch.first ≥ confirmDur

def state (stretch : Stretch) : OfflineState := if stretch.connected then .online else .offline

def extend : List Stretch → Observation → List Stretch
  | [], obs => [⟨obs.connected, obs.now, obs.now⟩]
  | latest :: rest, obs =>
    if latest.connected = obs.connected then { latest with last := obs.now } :: rest
    else ⟨obs.connected, obs.now, obs.now⟩ :: latest :: rest

def ofHistory (history : List Observation) : List Stretch := history.foldl extend []

def judged (stretches : List Stretch) : OfflineState :=
  ((stretches.find? long).map state).getD .offline

theorem judged_cons (stretch : Stretch) (rest : List Stretch) :
    judged (stretch :: rest) = if stretch.long then stretch.state else judged rest := by
  rw [judged, judged, List.find?_cons]
  cases stretch.long <;> rfl

end Stretch

namespace OfflineDetector

open Stretch

theorem le_sub_iff_long (now start : Time) (connected : Bool) :
    confirmDur ≤ Time.sub now start ↔ Stretch.long ⟨connected, start, now⟩ := by
  rw [Stretch.long, decide_eq_true_iff]
  change (4500000000 : Int) ≤ max (-2 ^ 63) (min (now - start) (2 ^ 63 - 1)) ↔
    (4500000000 : Int) ≤ now - start
  omega

def since (d : OfflineDetector) (connected : Bool) : Option Time :=
  if connected then d.goodSince else d.badSince

def seen (d : OfflineDetector) (obs : Observation) : Stretch :=
  ⟨obs.connected, (d.since obs.connected).getD obs.now, obs.now⟩

theorem since_evaluate (d : OfflineDetector) (obs : Observation) (connected : Bool) :
    (d.evaluate obs).since connected =
      if connected = obs.connected then some (d.seen obs).first else none := by
  cases connected <;> cases isConnected : obs.connected <;>
    simp [since, evaluate, seen, isConnected]

theorem state_evaluate (d : OfflineDetector) (obs : Observation) :
    (d.evaluate obs).state = if (d.seen obs).long then (d.seen obs).state else d.state := by
  cases isConnected : obs.connected <;>
    simp [evaluate, seen, since, isConnected, confirmed, Stretch.state,
      le_sub_iff_long _ _ obs.connected]

structure Agrees (now : Time) (stretches : List Stretch) (d : OfflineDetector) : Prop where
  state : d.state = judged stretches
  since : ∀ connected, d.since connected =
    (stretches.head?.filter fun latest => latest.connected = connected).map Stretch.first
  past : ∀ latest ∈ stretches.head?, latest.last ≤ now

theorem Agrees.evaluate (agrees : Agrees pre stretches d) {obs : Observation}
    (later : pre ≤ obs.now) : Agrees obs.now (extend stretches obs) (d.evaluate obs) := by
  rcases agrees with ⟨state, since, past⟩
  -- what is seen is the latest run, and if it is not long then the earlier ones decide
  have seen : ∃ rest, extend stretches obs = d.seen obs :: rest ∧
      ((d.seen obs).long = false → judged rest = judged stretches) := by
    rw [OfflineDetector.seen, since]
    cases stretches with
    | nil => exact ⟨[], rfl, fun _ => rfl⟩
    | cons latest rest =>
      by_cases same : latest.connected = obs.connected
      · refine ⟨rest, by simp [extend, same, Option.filter_some], ?_⟩
        intro short
        have pre := past latest rfl
        simp only [judged_cons, Stretch.long] at short ⊢
        grind
      · exact ⟨latest :: rest, by simp [extend, same, Option.filter_some], fun _ => rfl⟩
  rcases seen with ⟨rest, extended, judge⟩
  rw [extended]
  refine ⟨?_, ?_, ?_⟩
  · rw [state_evaluate, judged_cons, state]
    split
    · rfl
    · rename_i short
      exact (judge (Bool.eq_false_of_not_eq_true short)).symm
  · intro connected
    rw [since_evaluate]
    cases connected <;> cases isConnected : obs.connected <;>
      simp [OfflineDetector.seen, isConnected, Option.filter_some]
  · rintro latest ⟨rfl⟩
    exact Int.le_refl _

theorem reports_evaluate (d : OfflineDetector) (obs : Observation) :
    (d.evaluate obs).reports = d.reports ++
      if (d.evaluate obs).state ≠ d.state then [(d.evaluate obs).state] else [] := by
  by_cases changed : (d.evaluate obs).state ≠ d.state
  · rw [if_pos changed]
    exact if_pos changed
  · rw [if_neg changed, List.append_nil]
    exact if_neg changed

/-- The states that have been reported, after the first one, alternate up to the current one. -/
def Alternates (d : OfflineDetector) : Prop :=
  ∃ earlier, .offline :: d.reports = earlier ++ [d.state] ∧
    (OfflineState.offline :: d.reports).IsChain (· ≠ ·)

theorem Alternates.evaluate (alternates : Alternates d) (obs : Observation) :
    Alternates (d.evaluate obs) := by
  rcases alternates with ⟨prev, last, chain⟩
  rw [Alternates, reports_evaluate]
  split
  · rename_i changed
    refine ⟨.offline :: d.reports, rfl, ?_⟩
    rw [last] at chain
    rw [← List.cons_append, last, List.append_assoc, List.singleton_append,
      List.isChain_append_cons_cons]
    exact ⟨chain, changed.symm, .singleton _⟩
  rename_i unchanged
  rw [List.append_nil, Decidable.not_not.mp unchanged]
  exact ⟨prev, last, chain⟩

/-- After each call the state is that of the latest long run, and changes of it are reported. -/
theorem debounced (history : List Observation)
    (ordered : history.Pairwise fun earlier later => earlier.now ≤ later.now) :
    let d := machine.run newOfflineDetector history
    d.state = judged (Stretch.ofHistory history) ∧ (∀ obs, (d.evaluate obs).reports = d.reports ++
        if (d.evaluate obs).state ≠ d.state then [(d.evaluate obs).state] else []) ∧
      (OfflineState.offline :: d.reports).IsChain (· ≠ ·) := by
  have start : Alternates newOfflineDetector := ⟨[], rfl, .singleton _⟩
  rcases machine.invariant start (fun _ obs alternates => alternates.evaluate obs) history with
    ⟨-, -, chain⟩
  refine ⟨?_, fun obs => reports_evaluate _ obs, chain⟩
  have agrees : ∀ now stretches d, Agrees now stretches d → (∀ obs ∈ history, now ≤ obs.now) →
      (machine.run d history).state = judged (history.foldl extend stretches) := by
    clear chain start
    induction history with
    | nil => exact fun now stretches d agrees _ => agrees.state
    | cons obs history induction =>
      intro now stretches d agrees later
      rw [List.pairwise_cons] at ordered
      exact induction ordered.2 obs.now _ _ (agrees.evaluate (later obs List.mem_cons_self))
        ordered.1
  cases history with
  | nil => rfl
  | cons obs history =>
    refine agrees obs.now [] newOfflineDetector ⟨rfl, fun connected => by cases connected <;> rfl,
      nofun⟩ ?_
    intro other member
    rcases List.mem_cons.mp member with rfl | member
    · exact Int.le_refl _
    · exact (List.pairwise_cons.mp ordered).1 other member

theorem debounced_online :
    let good (now : Time) : Observation := ⟨[.outbound], [], now⟩
    let history := [good 0, good 4500000000, ⟨[], [.unknown], 4600000000⟩]
    (machine.run newOfflineDetector history).state = .online :=
  (debounced _ (by simp)).1

end OfflineDetector

end Peerscale.P2put
