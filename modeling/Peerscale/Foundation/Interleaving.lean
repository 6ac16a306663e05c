import Peerscale.Foundation.Program
import Mathlib.Logic.Function.Basic
import Mathlib.Logic.Relation

/-! # Programs at work on a common store

Any number of programs whose operations interleave in any order. Each sees the
common store and a part of the world of its own. A contract says what every program
relies on the others not to do; programs that keep it when they run against every
environment keep it when they run together.
-/

namespace Peerscale

open Program

section

variable (Index Shared Local World Op : Type) (Response : Op → Type) (Fault α : Type)

/-- The common store, and for every program its own part of the world and what it
has still to do. -/
structure Crowd where
  shared : Shared
  self : Index → Local
  program : Index → Program Op Response Fault α

structure Act where
  who : Index
  op : Op
  answer : Response op

/-- How operations are answered, how a program that has returned may go on, and
what may happen to a program's own part between its operations. -/
structure Setting where
  join : Shared → Local → World
  outcome : (op : Op) → World → Response op → World → Prop
  resumes : Index → α → Program Op Response Fault α → Prop
  disturbs : Local → Local → Prop

end

variable {Index Shared Local World Op : Type} {Response : Op → Type} {Fault α : Type}

namespace Setting

variable (setting : Setting Index Shared Local World Op Response Fault α)

def world (crowd : Crowd Index Shared Local Op Response Fault α) (index : Index) : World :=
  setting.join crowd.shared (crowd.self index)

/-- What every program keeps to, and what it relies on the others to keep to. -/
structure Contract where
  rely : World → World → Prop
  allowed : Index → Op → World → Prop
  faulted : Index → Fault → World → Prop
  post : Index → α → World → Prop
  refl : ∀ world, rely world world
  trans : ∀ {first second third}, rely first second → rely second third → rely first third
  stable_post : ∀ {index value before after}, rely before after →
    post index value before → post index value after
  stable_faulted : ∀ {index fault before after}, rely before after →
    faulted index fault before → faulted index fault after
  resumed : ∀ {index value program world}, setting.resumes index value program →
    post index value world →
      program.Ensures ⟨rely, setting.outcome⟩ (allowed index) (faulted index) (post index) world
  disturbed : ∀ {shared before after}, setting.disturbs before after →
    rely (setting.join shared before) (setting.join shared after)

section Steps

variable [DecidableEq Index]

inductive Step : Crowd Index Shared Local Op Response Fault α →
    Option (Act Index Op Response) → Crowd Index Shared Local Op Response Fault α → Prop
  | perform {crowd : Crowd Index Shared Local Op Response Fault α} {who : Index} {op : Op}
      {next : Response op → Program Op Response Fault α} {answer : Response op}
      {shared : Shared} {self : Local} (ready : crowd.program who = .perform op next)
      (answered : setting.outcome op (setting.world crowd who) answer (setting.join shared self)) :
      Step crowd (some ⟨who, op, answer⟩) ⟨shared, Function.update crowd.self who self,
          Function.update crowd.program who (next answer)⟩
  | resume {crowd : Crowd Index Shared Local Op Response Fault α} {who : Index} {value : α}
      {program : Program Op Response Fault α} (returned : crowd.program who = .done value)
      (resumed : setting.resumes who value program) :
      Step crowd none { crowd with program := Function.update crowd.program who program }
  | disturb {crowd : Crowd Index Shared Local Op Response Fault α} {who : Index} {self : Local}
      (disturbed : setting.disturbs (crowd.self who) self) :
      Step crowd none { crowd with self := Function.update crowd.self who self }

def Stepping (permitted : Crowd Index Shared Local Op Response Fault α →
      Option (Act Index Op Response) → Prop)
    (before after : Crowd Index Shared Local Op Response Fault α) : Prop :=
  ∃ label, permitted before label ∧ setting.Step before label after

end Steps

end Setting

namespace Setting.Contract

variable {setting : Setting Index Shared Local World Op Response Fault α}
  (contract : setting.Contract)

def Keeps (index : Index) (program : Program Op Response Fault α) (world : World) : Prop :=
  program.Ensures ⟨contract.rely, setting.outcome⟩ (contract.allowed index)
    (contract.faulted index) (contract.post index) world

variable {contract}

theorem Keeps.rely (keeps : contract.Keeps index prog pre)
    (relied : contract.rely pre after) : contract.Keeps index prog after := by
  cases prog with
  | done => exact contract.stable_post relied keeps
  | halt => exact contract.stable_faulted relied keeps
  | perform => exact fun cur later => keeps cur (contract.trans relied later)

variable (contract)

/-- A program that has returned for good, whatever becomes of the world. -/
def Retired (crowd : Crowd Index Shared Local Op Response Fault α) (index : Index) : Prop :=
  ∃ value, crowd.program index = .done value ∧ ∀ world, contract.post index value world

def AllKeep (crowd : Crowd Index Shared Local Op Response Fault α) : Prop :=
  ∀ index, contract.Keeps index (crowd.program index) (setting.world crowd index)

variable {contract} [DecidableEq Index]

/-- An operation is performed only where the contract allows it. -/
theorem AllKeep.allowed (keep : contract.AllKeep cr) (stepped : setting.Step cr (some act) next) :
    contract.allowed act.who act.op (setting.world cr act.who) := by
  cases stepped with
  | @perform who op cont answer shared self ready =>
    have keeps := keep who
    rw [ready] at keeps
    exact (keeps _ (contract.refl _)).1

/-- If an operation disturbs the others only in the way they rely on, everybody
still keeps the contract after it. -/
theorem AllKeep.step (keep : contract.AllKeep cr) (stepped : setting.Step cr label next)
    (undisturbed : ∀ act, label = some act → ∀ index, index ≠ act.who → contract.Retired cr index ∨
        contract.rely (setting.world cr index) (setting.world next index)) :
    contract.AllKeep next := by
  intro index
  cases stepped with
  | @perform who op cont answer shared self ready ans =>
    by_cases isActor : index = who
    · subst index
      have keeps := keep who
      rw [ready] at keeps
      have after : contract.Keeps who (cont answer) (setting.join shared self) :=
        (keeps _ (contract.refl _)).2 answer _ ans
      simpa [Setting.world] using after
    rw [show (Crowd.mk shared (Function.update cr.self who self)
      (Function.update cr.program who (cont answer))).program index =
        cr.program index from Function.update_of_ne isActor _ _]
    rcases undisturbed _ rfl index isActor with ⟨val, ret, always⟩ | relied
    · rw [ret]
      exact always _
    · exact (keep index).rely relied
  | @resume who val prog ret resumed =>
    by_cases isActor : index = who
    · subst index
      have keeps := keep who
      rw [ret] at keeps
      have goesOn : contract.Keeps who prog (setting.world cr who) := contract.resumed resumed keeps
      simpa [Setting.world] using goesOn
    · have keeps := keep index
      simpa [Setting.world, isActor] using keeps
  | @disturb who self disturbed =>
    by_cases isActor : index = who
    · subst index
      have relied := (keep who).rely (contract.disturbed disturbed)
      simpa [Setting.world] using relied
    · have keeps := keep index
      simpa [Setting.world, isActor] using keeps

end Setting.Contract

end Peerscale
