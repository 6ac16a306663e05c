import Mathlib.Control.Basic

/-! # Effectful programs

Sequential code that talks to its surroundings, written as a tree of the
operations it performs. The same tree is executed by a deterministic handler,
judged against every answer an environment may give, and interleaved with other
programs one operation at a time.
-/

namespace Peerscale

/-- A program over the operations `Op`. `Response op` is what the environment
answers to `op`; `halt` abandons the program with a fault, skipping whatever was
to follow. -/
inductive Program (Op : Type) (Response : Op → Type) (Fault : Type) (α : Type) : Type
  | done (value : α)
  | halt (fault : Fault)
  | perform (op : Op) (next : Response op → Program Op Response Fault α)

namespace Program

variable {Op : Type} {Response : Op → Type} {Fault World α β : Type}

def bind (program : Program Op Response Fault α)
    (continuation : α → Program Op Response Fault β) : Program Op Response Fault β :=
  match program with
  | .done value => continuation value
  | .halt fault => .halt fault
  | .perform op next => .perform op fun response => (next response).bind continuation

instance : Monad (Program Op Response Fault) where
  pure := .done
  bind := bind

def ask (op : Op) : Program Op Response Fault (Response op) :=
  .perform op .done

def ofExcept : Except Fault α → Program Op Response Fault α
  | .ok value => .done value
  | .error fault => .halt fault

private theorem bind_done (prog : Program Op Response Fault α) : prog.bind .done = prog := by
  induction prog with
  | done | halt => rfl
  | perform op next induction => exact congrArg (Program.perform op) (funext induction)

private theorem bind_assoc (prog : Program Op Response Fault α)
    (x : α → Program Op Response Fault β) (y : β → Program Op Response Fault γ) :
    (prog.bind x).bind y = prog.bind fun val => (x val).bind y := by
  induction prog with
  | done | halt => rfl
  | perform op next induction => exact congrArg (Program.perform op) (funext induction)

instance : LawfulMonad (Program Op Response Fault) :=
  LawfulMonad.mk' _ bind_done (fun _ _ => rfl) bind_assoc

@[simp] theorem pure_eq_done (val : α) : (pure val : Program Op Response Fault α) = .done val := rfl

@[simp] theorem done_bind (val : α) (cont : α → Program Op Response Fault β) :
    (Program.done val >>= cont) = cont val := rfl

@[simp] theorem halt_bind (fault : Fault) (cont : α → Program Op Response Fault β) :
    (Program.halt fault >>= cont) = .halt fault := rfl

@[simp] theorem perform_bind (op : Op) (next : Response op → Program Op Response Fault α)
    (cont : α → Program Op Response Fault β) :
    (Program.perform op next >>= cont) = .perform op fun resp => next resp >>= cont := rfl

@[simp] theorem ask_bind (op : Op) (cont : Response op → Program Op Response Fault β) :
    (ask op >>= cont) = .perform op cont := rfl

@[simp] theorem ofExcept_ok (val : α) :
    (ofExcept (.ok val) : Program Op Response Fault α) = .done val := rfl

@[simp] theorem ofExcept_error (fault : Fault) :
    (ofExcept (.error fault) : Program Op Response Fault α) = .halt fault := rfl

def run (handle : (op : Op) → World → Response op × World) :
    Program Op Response Fault α → World → Except Fault α × World
  | .done value, world => (.ok value, world)
  | .halt fault, world => (.error fault, world)
  | .perform op next, world => (next (handle op world).1).run handle (handle op world).2

section Run

variable (handle : (op : Op) → World → Response op × World)

@[simp] theorem run_done (val : α) (w : World) :
    (Program.done val : Program Op Response Fault α).run handle w = (.ok val, w) := rfl

@[simp] theorem run_halt (fault : Fault) (w : World) :
    (Program.halt fault : Program Op Response Fault α).run handle w = (.error fault, w) := rfl

@[simp] theorem run_perform (op : Op)
    (next : Response op → Program Op Response Fault α) (w : World) :
    (Program.perform op next).run handle w =
      (next (handle op w).1).run handle (handle op w).2 := rfl

theorem run_bind_of_ok {prog : Program Op Response Fault α}
    (ran : prog.run handle w = (.ok val, next)) :
    (prog >>= cont).run handle w = (cont val).run handle next := by
  induction prog generalizing w with
  | done =>
    rcases ran with ⟨rfl, rfl⟩
    rfl
  | halt => simp at ran
  | perform op rest induction => exact induction _ ran

theorem run_bind_of_error {prog : Program Op Response Fault α}
    (ran : prog.run handle w = (.error fault, next)) :
    (prog >>= cont).run handle w = (.error fault, next) := by
  induction prog generalizing w with
  | done => simp at ran
  | halt =>
    rcases ran with ⟨rfl, rfl⟩
    rfl
  | perform op rest induction => exact induction _ ran

end Run

/-- What a program may meet: `rely` is how the world may change between two of
its operations, `outcome` how an operation may be answered. -/
structure Environment (Op : Type) (Response : Op → Type) (World : Type) where
  rely : World → World → Prop
  outcome : (op : Op) → World → Response op → World → Prop

/-- Whatever the environment does, every operation is performed only where
`allowed`, every result satisfies `post` and every fault satisfies `fault`. -/
def Ensures (environment : Environment Op Response World)
    (allowed : Op → World → Prop) (faulted : Fault → World → Prop) :
    Program Op Response Fault α → (α → World → Prop) → World → Prop
  | .done value, post, world => post value world
  | .halt fault, _, world => faulted fault world
  | .perform op next, post, world =>
    ∀ current, environment.rely world current → allowed op current ∧
      ∀ response after, environment.outcome op current response after →
        (next response).Ensures environment allowed faulted post after

section Ensures

theorem ensures_perform (op : Op) (next : Response op → Program Op Response Fault α)
    (post : α → World → Prop) (w : World) :
    (Program.perform op next).Ensures environment allowed faulted post w ↔
      ∀ cur, environment.rely w cur → allowed op cur ∧
        ∀ resp after, environment.outcome op cur resp after →
          (next resp).Ensures environment allowed faulted post after := Iff.rfl

theorem ensures_bind (prog : Program Op Response Fault α)
    (cont : α → Program Op Response Fault β) (post : β → World → Prop) (w : World) :
    (prog >>= cont).Ensures environment allowed faulted post w ↔
      prog.Ensures environment allowed faulted
        (fun val after => (cont val).Ensures environment allowed faulted post after) w := by
  induction prog generalizing w with
  | done | halt => rfl
  | perform op next induction => simp only [perform_bind, ensures_perform, induction]

theorem Ensures.mono {prog : Program Op Response Fault α}
    (ensured : prog.Ensures environment allowed faulted stronger w)
    (implies : ∀ val after, stronger val after → weaker val after) :
    prog.Ensures environment allowed faulted weaker w := by
  induction prog generalizing w with
  | done val => exact implies val w ensured
  | halt => exact ensured
  | perform op next induction =>
    intro cur relied
    refine ⟨(ensured cur relied).1, ?_⟩
    intro resp after ans
    exact induction resp ((ensured cur relied).2 resp after ans)

end Ensures

/-- Whatever the answers, the program returns, and with a value in `post`. -/
def Total : Program Op Response Fault α → (α → Prop) → Prop
  | .done value, post => post value
  | .halt _, _ => False
  | .perform _ next, post => ∀ response, (next response).Total post

section Total

theorem total_perform {next : Response op → Program Op Response Fault α} {post : α → Prop}
    (continues : ∀ resp, (next resp).Total post) :
    (Program.perform op next).Total post := continues

theorem Total.bind {cont : α → Program Op Response Fault β} {mid : α → Prop}
    {post : β → Prop} (total : Total prog mid)
    (continues : ∀ val, mid val → (cont val).Total post) : (prog >>= cont).Total post := by
  induction prog with
  | done val => exact continues val total
  | halt => exact total.elim
  | perform op next induction => exact fun resp => induction resp (total resp)

theorem Total.mono (total : Total prog stronger)
    (implies : ∀ val, stronger val → weaker val) : prog.Total weaker := by
  induction prog with
  | done val => exact implies val total
  | halt => exact total
  | perform op next induction => exact fun resp => induction resp (total resp)

theorem Total.ensures (total : Total prog post) (environment : Environment Op Response World)
    (w : World) :
    prog.Ensures environment (fun _ _ => True) (fun _ _ => False) (fun val _ => post val) w := by
  induction prog generalizing w with
  | done | halt => exact total
  | perform op next induction =>
    intro cur _
    exact ⟨trivial, fun resp after _ => induction resp (total resp) after⟩

end Total

/-- The executions an environment admits, from a world to a result and the world
it is reached in. -/
inductive Executes (environment : Environment Op Response World) :
    Program Op Response Fault α → World → Except Fault α → World → Prop
  | done (value : α) (world : World) : Executes environment (.done value) world (.ok value) world
  | halt (fault : Fault) (world : World) :
      Executes environment (.halt fault) world (.error fault) world
  | perform {op : Op} {next : Response op → Program Op Response Fault α}
      {world current after final : World} {response : Response op} {result : Except Fault α}
      (relied : environment.rely world current)
      (answered : environment.outcome op current response after)
      (rest : Executes environment (next response) after result final) :
      Executes environment (.perform op next) world result final

def Meets (post : α → World → Prop) (faulted : Fault → World → Prop) :
    Except Fault α → World → Prop
  | .ok value => post value
  | .error fault => faulted fault

section Executes

theorem Ensures.executes {prog : Program Op Response Fault α}
    (ensured : prog.Ensures environment allowed faulted post w)
    (execution : prog.Executes environment w res final) : Meets post faulted res final := by
  induction execution with
  | done | halt => exact ensured
  | perform relied ans rest induction => exact induction ((ensured _ relied).2 _ _ ans)

/-- A handler whose answers the environment admits performs one of the
executions. -/
theorem executes_run (handle : (op : Op) → World → Response op × World)
    (undisturbed : ∀ w, environment.rely w w) (admitted : ∀ op w,
      environment.outcome op w (handle op w).1 (handle op w).2)
    (prog : Program Op Response Fault α) (w : World) :
    prog.Executes environment w (prog.run handle w).1 (prog.run handle w).2 := by
  induction prog generalizing w with
  | done val => exact .done val w
  | halt fault => exact .halt fault w
  | perform op next induction => exact .perform (undisturbed w) (admitted op w) (induction _ _)

end Executes

end Program

end Peerscale
