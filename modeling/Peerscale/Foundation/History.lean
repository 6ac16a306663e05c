import Peerscale.Foundation.Program

/-! # Programs with a history

A reactor runs one program after the other, each in answer to something that it hears. Others
may act between any two of its operations. All that happens is recorded, together with the
worlds before and after it, so that what holds of a run can be said of its record.
-/

namespace Peerscale

/-- Something that happens: an operation with its answer, or an act. -/
inductive Deed (Op : Type) (Response : Op → Type) (Act : Type)
  | performed (op : Op) (response : Response op)
  | act (act : Act)

structure Moment (Op : Type) (Response : Op → Type) (Act World : Type) where
  before : World
  deed : Deed Op Response Act
  after : World

structure Chronicle (Op : Type) (Response : Op → Type) (Act World : Type) where
  world : World
  past : List (Moment Op Response Act World)

namespace Chronicle

variable {Op : Type} {Response : Op → Type} {Act World : Type}

def start (world : World) : Chronicle Op Response Act World := ⟨world, []⟩

def next (log : Chronicle Op Response Act World) (deed : Deed Op Response Act)
    (after : World) : Chronicle Op Response Act World :=
  ⟨after, ⟨log.world, deed, after⟩ :: log.past⟩

def note (log : Chronicle Op Response Act World) (act : Act) : Chronicle Op Response Act World :=
  log.next (.act act) log.world

end Chronicle

/-- How operations may be answered, and what others may do. -/
structure Surroundings (Op : Type) (Response : Op → Type) (Act World : Type) where
  outcome : (op : Op) → World → Response op → World → Prop
  acts : Chronicle Op Response Act World → Act → World → Prop

/-- `heard` is how it is recorded that an input arrives. -/
structure Reactor (Op : Type) (Response : Op → Type) (Fault Act World State Input : Type) extends
    Surroundings Op Response Act World where
  heard : Input → Act
  begin : Program Op Response Fault State
  react : State → Input → Program Op Response Fault State

namespace Surroundings

variable {Op : Type} {Response : Op → Type} {Fault Act World α : Type}
  (around : Surroundings Op Response Act World)

/-- The same among others who act only where it is `allowed`. -/
def limit (allowed : Chronicle Op Response Act World → Act → Prop) :
    Surroundings Op Response Act World where
  outcome := around.outcome
  acts log act after := around.acts log act after ∧ allowed log act

inductive Disturbs : Chronicle Op Response Act World → Chronicle Op Response Act World → Prop
  | nothing (log : Chronicle Op Response Act World) : Disturbs log log
  | act {first second : Chronicle Op Response Act World} {act : Act} {after : World}
      (before : Disturbs first second) (acts : around.acts second act after) :
      Disturbs first (second.next (.act act) after)

def environment : Program.Environment Op Response (Chronicle Op Response Act World) where
  rely := around.Disturbs
  outcome op log response later := ∃ after, around.outcome op log.world response after ∧
      later = log.next (.performed op response) after

/-! ## What programs lead to -/

/-- Whatever others do and however the operations are answered, the program returns a value as
in `post`, or it faults as in `faulted`. -/
def Leads (faulted : Fault → Chronicle Op Response Act World → Prop)
    (program : Program Op Response Fault α) (post : α → Chronicle Op Response Act World → Prop)
    (log : Chronicle Op Response Act World) : Prop :=
  program.Ensures around.environment (fun _ _ => True) faulted post log

variable {around} {log : Chronicle Op Response Act World}

theorem leads_perform (leads : ∀ cur, around.Disturbs log cur → ∀ resp after,
      around.outcome op cur.world resp after → around.Leads faulted (next resp) post
          (cur.next (.performed op resp) after)) :
    around.Leads faulted (.perform op next) post log := by
  intro cur disturbed
  refine ⟨trivial, ?_⟩
  rintro resp later ⟨after, answered, rfl⟩
  exact leads cur disturbed resp after answered

def Stable (around : Surroundings Op Response Act World)
    (holds : Chronicle Op Response Act World → Prop) : Prop :=
  ∀ log act after, holds log → around.acts log act after → holds (log.next (.act act) after)

theorem Stable.disturbs (stable : around.Stable holds) (disturbs : around.Disturbs first second)
    (holding : holds first) : holds second := by
  induction disturbs with
  | nothing => exact holding
  | act pre acts induction => exact stable _ _ _ induction acts

theorem Stable.leads_perform (stable : around.Stable holds) (holding : holds log)
    (leads : ∀ cur, holds cur → ∀ resp after,
      around.outcome op cur.world resp after → around.Leads faulted (next resp) post
          (cur.next (.performed op resp) after)) :
    around.Leads faulted (.perform op next) post log := by
  apply Surroundings.leads_perform
  intro cur disturbed
  exact leads cur (stable.disturbs disturbed holding)

def Undisturbed (around : Surroundings Op Response Act World) : Prop :=
  ∀ log act after, ¬around.acts log act after

theorem Undisturbed.stable (undisturbed : around.Undisturbed)
    (holds : Chronicle Op Response Act World → Prop) : around.Stable holds :=
  fun log act after _ acts => absurd acts (undisturbed log act after)

theorem Undisturbed.leads_perform (undisturbed : around.Undisturbed)
    (leads : ∀ resp after, around.outcome op log.world resp after →
      around.Leads faulted (next resp) post (log.next (.performed op resp) after)) :
    around.Leads faulted (.perform op next) post log := by
  apply (undisturbed.stable fun cur => cur = log).leads_perform rfl
  rintro cur rfl
  exact leads

theorem leads_bind {cont : α → Program Op Response Fault β}
    {post : β → Chronicle Op Response Act World → Prop} :
    around.Leads faulted (prog >>= cont) post log ↔
      around.Leads faulted prog (fun val later => around.Leads faulted (cont val) post later) log :=
  Program.ensures_bind prog cont post log

theorem Leads.mono (leads : around.Leads faulted prog post log)
    (implies : ∀ val later, post val later → weaker val later) :
    around.Leads faulted prog weaker log :=
  Program.Ensures.mono leads implies

theorem Leads.bind {cont : α → Program Op Response Fault β}
    {post : β → Chronicle Op Response Act World → Prop} (leads : around.Leads faulted prog mid log)
    (next : ∀ val later, mid val later → around.Leads faulted (cont val) post later) :
    around.Leads faulted (prog >>= cont) post log :=
  leads_bind.mpr (leads.mono next)

theorem Leads.and (first : around.Leads firstFaulted prog post log)
    (second : around.Leads secondFaulted prog other log)
    (faults : ∀ fault later, firstFaulted fault later → secondFaulted fault later →
      faulted fault later) :
    around.Leads faulted prog (fun val later => post val later ∧ other val later)
      log := by
  induction prog generalizing log with
  | done => exact ⟨first, second⟩
  | halt fault => exact faults fault log first second
  | perform op next induction =>
    intro cur disturbed
    refine ⟨trivial, ?_⟩
    intro resp later answered
    exact induction resp ((first cur disturbed).2 resp later answered)
      ((second cur disturbed).2 resp later answered)

theorem leads_of_total {post : α → Prop} (total : Program.Total prog post) :
    around.Leads (fun _ _ => False) prog (fun val _ => post val) log :=
  total.ensures around.environment log

/-! ## Programs that perform certain operations only -/

end Surroundings

def Program.Only {Op : Type} {Response : Op → Type} {Fault α : Type} (kind : Op → Prop) :
    Program Op Response Fault α → Prop
  | .done _ => True
  | .halt _ => True
  | .perform op next => kind op ∧ ∀ response, (next response).Only kind

section

variable {Op : Type} {Response : Op → Type}

theorem Program.only_perform {Fault α : Type}
    {kind : Op → Prop} {op : Op} {next : Response op → Program Op Response Fault α}
    (isKind : kind op) (continues : ∀ resp, (next resp).Only kind) :
    (Program.perform op next).Only kind := ⟨isKind, continues⟩

theorem Program.Only.bind {Fault α β : Type} {kind : Op → Prop} {prog : Program Op Response Fault α}
    {cont : α → Program Op Response Fault β} (only : prog.Only kind)
    (continues : ∀ val, (cont val).Only kind) : (prog >>= cont).Only kind := by
  induction prog with
  | done val => exact continues val
  | halt => trivial
  | perform op next induction => exact ⟨only.1, fun resp => induction resp (only.2 resp)⟩

theorem Program.Only.mono {Fault α : Type}
    {weaker stronger : Op → Prop} {prog : Program Op Response Fault α}
    (only : prog.Only stronger) (implies : ∀ op, stronger op → weaker op) : prog.Only weaker := by
  induction prog with
  | done | halt => trivial
  | perform op next induction => exact ⟨implies op only.1, fun resp => induction resp (only.2 resp)⟩

end

namespace Surroundings

variable {Op : Type} {Response : Op → Type} {Fault Act World α : Type}
  {around : Surroundings Op Response Act World}
  {faulted : Fault → Chronicle Op Response Act World → Prop}
  {log : Chronicle Op Response Act World}

/-- What neither others nor the operations of a kind change is kept by a program that performs
no other operations. -/
theorem Stable.leads_of_only {prog : Program Op Response Fault α} (stable : around.Stable holds)
    (only : prog.Only kind) (keeps : ∀ log op resp after, kind op → holds log →
      around.outcome op log.world resp after → holds (log.next (.performed op resp) after))
    (faults : ∀ fault log, holds log → faulted fault log) (holding : holds log) :
    around.Leads faulted prog (fun _ later => holds later) log := by
  induction prog generalizing log with
  | done => exact holding
  | halt fault => exact faults fault log holding
  | perform op next induction =>
    apply stable.leads_perform holding
    intro cur holding resp after answered
    exact induction resp (only.2 resp) (keeps _ _ _ _ only.1 holding answered)

end Surroundings

namespace Reactor

variable {Op : Type} {Response : Op → Type} {Fault Act World State Input α : Type}
  (rx : Reactor Op Response Fault Act World State Input)

def hear (input : Input) (log : Chronicle Op Response Act World) :
    Chronicle Op Response Act World :=
  log.note (rx.heard input)

/-- The runs in which every input is permitted when it arrives. -/
inductive Runs (permitted : State → Input → Chronicle Op Response Act World → Prop)
    (world : World) : Except Fault State → Chronicle Op Response Act World → Prop
  | begin {result : Except Fault State} {log : Chronicle Op Response Act World}
      (executes : rx.begin.Executes rx.environment (.start world) result log) :
      Runs permitted world result log
  | react {state : State} {input : Input} {log later : Chronicle Op Response Act World}
      {result : Except Fault State} (runs : Runs permitted world (.ok state) log)
      (permits : permitted state input log)
      (executes : (rx.react state input).Executes rx.environment (rx.hear input log) result later) :
      Runs permitted world result later

/-! ## What runs lead to -/

variable {rx} {faulted : Fault → Chronicle Op Response Act World → Prop}
  {log : Chronicle Op Response Act World}

/-- What the first program establishes and every other one keeps holds in every run. -/
theorem Runs.invariant {may : State → Input → Chronicle Op Response Act World → Prop}
    {world : World} {holds : State → Chronicle Op Response Act World → Prop}
    {res : Except Fault State} (begins : rx.Leads faulted rx.begin holds (.start world))
    (reacts : ∀ state input log, holds state log → may state input log →
        rx.Leads faulted (rx.react state input) holds (rx.hear input log))
    (runs : rx.Runs may world res log) : Program.Meets holds faulted res log := by
  induction runs with
  | begin executes => exact begins.executes executes
  | react runs permits executes induction =>
    exact (reacts _ _ _ induction permits).executes executes

section Play

variable (rx) (handle : (op : Op) → World → Response op × World)

def record (op : Op) (log : Chronicle Op Response Act World) :
    Response op × Chronicle Op Response Act World :=
  ((handle op log.world).1,
    log.next (.performed op (handle op log.world).1) (handle op log.world).2)

def playFrom (state : State) (log : Chronicle Op Response Act World) :
    List Input → Except Fault State × Chronicle Op Response Act World
  | [] => (.ok state, log)
  | input :: inputs =>
    match (rx.react state input).run (record handle) (rx.hear input log) with
    | (.ok state, log) => playFrom state log inputs
    | (.error fault, log) => (.error fault, log)

/-- A run in which nobody else acts and a handler answers. -/
def play (world : World) (inputs : List Input) :
    Except Fault State × Chronicle Op Response Act World :=
  match rx.begin.run (record handle) (.start world) with
  | (.ok state, log) => rx.playFrom handle state log inputs
  | (.error fault, log) => (.error fault, log)

def PermitsFrom (permitted : State → Input → Chronicle Op Response Act World → Prop)
    (state : State) (log : Chronicle Op Response Act World) : List Input → Prop
  | [] => True
  | input :: inputs =>
    permitted state input log ∧
      match (rx.react state input).run (record handle) (rx.hear input log) with
      | (.ok state, log) => PermitsFrom permitted state log inputs
      | (.error _, _) => True

instance decidablePermitsFrom (permitted : State → Input → Chronicle Op Response Act World → Prop)
    [∀ state input log, Decidable (permitted state input log)] :
    (state : State) → (log : Chronicle Op Response Act World) → (inputs : List Input) →
      Decidable (rx.PermitsFrom handle permitted state log inputs)
  | _, _, [] => isTrue trivial
  | state, log, input :: inputs =>
    have : Decidable (match (rx.react state input).run (record handle)
        (rx.hear input log) with
      | (.ok state, log) => rx.PermitsFrom handle permitted state log inputs
      | (.error _, _) => True) :=
      match (rx.react state input).run (record handle) (rx.hear input log) with
      | (.ok state, log) => decidablePermitsFrom permitted state log inputs
      | (.error _, _) => isTrue trivial
    inferInstanceAs (Decidable (_ ∧ _))

def Permits (permitted : State → Input → Chronicle Op Response Act World → Prop) (world : World)
    (inputs : List Input) : Prop :=
  match rx.begin.run (record handle) (.start world) with
  | (.ok state, log) => rx.PermitsFrom handle permitted state log inputs
  | (.error _, _) => True

instance (permitted : State → Input → Chronicle Op Response Act World → Prop)
    [∀ state input log, Decidable (permitted state input log)] (world : World)
    (inputs : List Input) : Decidable (rx.Permits handle permitted world inputs) :=
  match h : rx.begin.run (record handle) (.start world) with
  | (.ok state, log) =>
    decidable_of_iff (rx.PermitsFrom handle permitted state log inputs) (by rw [Permits, h])
  | (.error _, _) => isTrue (by rw [Permits, h]; trivial)

variable {rx handle} {world : World}

theorem executes_record (admitted : ∀ op world,
      rx.outcome op world (handle op world).1 (handle op world).2)
    (prog : Program Op Response Fault α) (log : Chronicle Op Response Act World) :
    prog.Executes rx.environment log (prog.run (record handle) log).1
      (prog.run (record handle) log).2 := by
  have undisturbed : ∀ log, rx.environment.rely log log := fun log => .nothing log
  have noted : ∀ op log, rx.environment.outcome op log
      (record handle op log).1 (record handle op log).2 :=
    fun op log => ⟨_, admitted op log.world, rfl⟩
  exact Program.executes_run (record handle) undisturbed noted prog log

theorem run_record (prog : Program Op Response Fault α) (log : Chronicle Op Response Act World) :
    (prog.run (record handle) log).1 = (prog.run handle log.world).1 ∧
      (prog.run (record handle) log).2.world = (prog.run handle log.world).2 := by
  induction prog generalizing log with
  | done | halt => exact ⟨rfl, rfl⟩
  | perform op next induction => exact induction (handle op log.world).1 (record handle op log).2

section

variable (admitted : ∀ op world, rx.outcome op world (handle op world).1 (handle op world).2)

include admitted

theorem Runs.react_of_run (runs : rx.Runs may world (.ok state) log) (permits : may state input log)
    (ran : (rx.react state input).run handle log.world = (.ok next, after)) :
    ∃ later, rx.Runs may world (.ok next) later ∧ later.world = after := by
  have executes := executes_record admitted (rx.react state input) (rx.hear input log)
  have noted := @run_record _ _ _ _ _ _ handle (rx.react state input) (rx.hear input log)
  rw [show (rx.hear input log).world = log.world from rfl, ran] at noted
  rw [noted.1] at executes
  exact ⟨_, .react runs permits executes, noted.2⟩

theorem runs_playFrom (runs : rx.Runs may world (.ok state) log)
    (permits : rx.PermitsFrom handle may state log inputs) :
    rx.Runs may world (rx.playFrom handle state log inputs).1
      (rx.playFrom handle state log inputs).2 := by
  induction inputs generalizing state log with
  | nil => exact runs
  | cons input inputs induction =>
    have executes := executes_record admitted (rx.react state input) (rx.hear input log)
    rcases permits with ⟨now, later⟩
    rw [playFrom]
    cases ran : (rx.react state input).run (record handle) (rx.hear input log) with
    | mk res after =>
      rw [ran] at executes later
      cases res with
      | ok => exact induction (.react runs now executes) later
      | error => exact .react runs now executes

theorem runs_play (permits : rx.Permits handle may world inputs) :
    rx.Runs may world (rx.play handle world inputs).1 (rx.play handle world inputs).2 := by
  have executes := executes_record admitted rx.begin (.start world)
  rw [Permits] at permits
  rw [play]
  cases ran : rx.begin.run (record handle) (.start world) with
  | mk res =>
    rw [ran] at executes permits
    cases res with
    | ok => exact runs_playFrom admitted (.begin executes) permits
    | error => exact .begin executes

end

theorem permits_of_forall (always : ∀ state input log, may state input log)
    (world : World) (inputs : List Input) : rx.Permits handle may world inputs := by
  have onwards : ∀ (inputs : List Input) state log,
      rx.PermitsFrom handle may state log inputs := by
    intro inputs
    induction inputs with
    | nil => exact fun _ _ => trivial
    | cons input inputs induction =>
      intro state log
      refine ⟨always state input log, ?_⟩
      split
      · exact induction _ _
      · trivial
  rw [Permits]
  split
  · exact onwards inputs _ _
  · trivial

end Play

end Reactor

end Peerscale
