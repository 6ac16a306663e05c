import Mathlib.Data.List.AList

/-! # Workers that are stopped through a channel

A worker runs loops, each in a goroutine of its own, and has a channel that is closed to stop
them: a loop returns only after that. A crew is a map of workers. Closing a channel twice ends
the process, so that a crew can be stopped only if none of its workers has been stopped.
-/

namespace Peerscale

open AList

structure Worker where
  stopped : Bool
  loops : Nat
  deriving DecidableEq

namespace Worker

def new : Worker := ⟨false, 0⟩

def start (worker : Worker) : Worker := { worker with loops := worker.loops + 1 }

def stop (worker : Worker) : Worker := { worker with stopped := true }

def loopReturns (worker : Worker) : Worker :=
  if worker.stopped then { worker with loops := worker.loops - 1 } else worker

theorem loopReturns_of_open {wk : Worker} (isOpen : wk.stopped = false) : wk.loopReturns = wk := by
  simp [loopReturns, isOpen]

@[simp] theorem stopped_loopReturns (wk : Worker) : wk.loopReturns.stopped = wk.stopped := by
  rw [loopReturns]
  split <;> rfl

theorem loops_loopReturns_le (wk : Worker) : wk.loopReturns.loops ≤ wk.loops := by
  rw [loopReturns]
  split
  · exact Nat.sub_le _ _
  · exact Nat.le_refl _

end Worker

abbrev Crew (Key : Type) := AList fun _ : Key => Worker

namespace Crew

variable {Key : Type}

def each (crew : Crew Key) (change : Worker → Worker) : Crew Key where
  entries := crew.entries.map (Sigma.map id fun _ => change)
  nodupKeys := crew.nodupKeys.map₂ _ _

def stoppable (crew : Crew Key) : Bool := crew.entries.all fun entry => !entry.2.stopped

variable [DecidableEq Key]

def modify (crew : Crew Key) (key : Key) (change : Worker → Worker) : Crew Key :=
  match crew.lookup key with
  | none => crew
  | some worker => crew.insert key (change worker)

def All (crew : Crew Key) (holds : Worker → Prop) : Prop :=
  ∀ key worker, crew.lookup key = some worker → holds worker

variable {crew : Crew Key} {holds : Worker → Prop}

theorem all_empty : All (∅ : Crew Key) holds := by
  intro key wk found
  cases found

theorem All.mono (all : crew.All holds) (implies : ∀ wk, holds wk → weaker wk) : crew.All weaker :=
  fun key wk found => implies wk (all key wk found)

theorem all_each : (crew.each change).All holds ↔ crew.All fun wk => holds (change wk) := by
  have lookup : ∀ key, (crew.each change).lookup key = (crew.lookup key).map change :=
    fun key => List.dlookup_map₂ key
  constructor
  · intro all key wk found
    exact all key (change wk) (by rw [lookup, found, Option.map_some])
  intro all key wk found
  rw [lookup, Option.map_eq_some_iff] at found
  obtain ⟨pre, isBefore, changed⟩ := found
  rw [← changed]
  exact all key pre isBefore

theorem all_insert_iff (absent : crew.lookup key = none) (new : Worker) :
    All (crew.insert key new) holds ↔ holds new ∧ crew.All holds := by
  constructor
  · intro all
    refine ⟨all key new (lookup_insert crew), ?_⟩
    intro other wk found
    have apart : other ≠ key := by
      intro same
      rw [same, absent] at found
      cases found
    exact all other wk (by rw [lookup_insert_ne apart, found])
  intro both other wk found
  by_cases same : other = key
  · subst same
    rw [lookup_insert, Option.some.injEq] at found
    rw [← found]
    exact both.1
  · rw [lookup_insert_ne same] at found
    exact both.2 other wk found

theorem All.erase (all : crew.All holds) (key : Key) : All (erase key crew) holds := by
  intro other wk found
  by_cases same : other = key
  · rw [same, lookup_erase] at found
    cases found
  · rw [lookup_erase_ne same] at found
    exact all other wk found

theorem All.modify (all : crew.All holds) (key : Key)
    (changed : ∀ wk, holds wk → holds (change wk)) : (crew.modify key change).All holds := by
  rw [Crew.modify]
  cases here : crew.lookup key with
  | none => exact all
  | some wk =>
    intro other mem found
    by_cases same : other = key
    · subst same
      rw [lookup_insert, Option.some.injEq] at found
      rw [← found]
      exact changed wk (all other wk here)
    · rw [lookup_insert_ne same] at found
      exact all other mem found

theorem stoppable_iff : crew.stoppable ↔ crew.All fun wk => wk.stopped = false := by
  simp only [stoppable, List.all_eq_true, Bool.not_eq_true']
  constructor
  · intro all key wk found
    exact all ⟨key, wk⟩ (mem_lookup_iff.mp found)
  · intro all e mem
    exact all e.1 e.2 (mem_lookup_iff.mpr mem)

end Crew

end Peerscale
