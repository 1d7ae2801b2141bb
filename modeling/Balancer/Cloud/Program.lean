import Balancer.Cloud.Request

/-!
# Programs over a cloud

A `Program` is a computation that asks requests of a cloud and tells notices to whoever listens, and ends
with a result or an error. It runs against a `Cloud`, which answers requests on a state of its own:
`Program.run`. Every request passes a `Gate` first, which may refuse it; this is how a reconcile is cut
off between two requests.

`run_pure`, `run_bind`, `run_rescue` and `run_answer` say how runs are put together.
-/

namespace Balancer

set_option autoImplicit false

/-- What a computation tells beside its requests. -/
inductive Notice where
  /-- The object that the following events are about. -/
  | subject (body : Value)
  | event (isWarning : Bool) (reason text : Value)
  /-- The host name to publish in the status of a Service. -/
  | status (ns name host : Value)

/-- A computation over a cloud. -/
inductive Program (α : Type) : Type where
  | done (result : Except Error α)
  | ask (r : Request) (next : Except Error r.Answer → Program α)
  | tell (n : Notice) (next : Program α)

namespace Program

variable {α β γ σ : Type}

protected def bind : Program α → (α → Program β) → Program β
  | done (.ok a), f => f a
  | done (.error e), _ => done (.error e)
  | ask r next, f => ask r fun x => (next x).bind f
  | tell n next, f => tell n (next.bind f)

/-- A computation, and another one in place of its error. -/
protected def rescue : Program α → (Error → Program α) → Program α
  | done (.ok a), _ => done (.ok a)
  | done (.error e), h => h e
  | ask r next, h => ask r fun x => (next x).rescue h
  | tell n next, h => tell n (next.rescue h)

instance : Monad Program where
  pure a := done (.ok a)
  bind := Program.bind

instance : MonadExcept Error Program where
  throw e := done (.error e)
  tryCatch := Program.rescue

instance : MonadLift (Except Error) Program where
  monadLift := done

/-- The answer to a request. -/
def answer (r : Request) : Program r.Answer := ask r done

def notice (n : Notice) : Program Unit := tell n (done (.ok ()))

def info (reason text : String) : Program Unit := notice (.event false (.text reason) (.text text))

def warn (reason text : String) : Program Unit := notice (.event true (.text reason) (.text text))

/-- A computation whose error is told as a warning and raised again. -/
def warning (p : Program α) (reason : String) (text : Error → String) : Program α :=
  p.rescue fun e => do
    warn reason (text e)
    throw e

theorem bind_pure (p : Program α) : (p.bind fun a => done (.ok a)) = p := by
  induction p with
  | done x => cases x <;> rfl
  | ask r next ih => simp only [Program.bind, ih]
  | tell n next ih => simp only [Program.bind, ih]

theorem bind_assoc (p : Program α) (f : α → Program β) (g : β → Program γ) :
    (p.bind f).bind g = p.bind fun a => (f a).bind g := by
  induction p with
  | done x => cases x <;> rfl
  | ask r next ih => simp only [Program.bind, ih]
  | tell n next ih => simp only [Program.bind, ih]

instance : LawfulMonad Program :=
  LawfulMonad.mk' Program (fun p => bind_pure p) (fun _ _ => rfl) (fun p f g => bind_assoc p f g)

end Program

/-! ## Runs -/

/-- A step that may fail and changes a state either way. -/
abbrev Step (σ α : Type) := σ → Except Error α × σ

/-- What stands between a program and its cloud: it admits requests and hears notices. -/
structure Gate (γ : Type) where
  allow : Request → γ → Except Error Unit × γ
  hear : Notice → γ → γ

/-- The gate that admits everything and hears nothing. -/
def Gate.free : Gate Unit where
  allow _ c := (.ok (), c)
  hear _ c := c

/-- What answers the requests of a program on a state. -/
structure Cloud (σ : Type) where
  perform : (r : Request) → Step σ r.Answer
  hear : Notice → σ → σ

/-- The result of a program and the state that it leaves. -/
def Program.run {α σ : Type} (c : Cloud σ) : Program α → Step σ α
  | .done x, s => (x, s)
  | .ask r next, s => (next (c.perform r s).1).run c (c.perform r s).2
  | .tell n next, s => next.run c (c.hear n s)

namespace Program

variable {α β σ : Type}

@[simp] theorem run_pure (c : Cloud σ) (a : α) (s : σ) : (pure a : Program α).run c s = (.ok a, s) := rfl

@[simp] theorem run_throw (c : Cloud σ) (e : Error) (s : σ) :
    (throw e : Program α).run c s = (.error e, s) := rfl

@[simp] theorem run_answer (c : Cloud σ) (r : Request) (s : σ) : (answer r).run c s = c.perform r s := rfl

@[simp] theorem run_notice (c : Cloud σ) (n : Notice) (s : σ) :
    (notice n).run c s = (.ok (), c.hear n s) := rfl

/-- After an error nothing more is done, else the rest runs on the state that the first part left. -/
theorem run_bind (c : Cloud σ) (p : Program α) (f : α → Program β) (s : σ) :
    (p >>= f).run c s =
      match p.run c s with
      | (.ok a, t) => (f a).run c t
      | (.error e, t) => (.error e, t) := by
  show (p.bind f).run c s = _
  induction p generalizing s with
  | done x => cases x <;> rfl
  | ask r next ih => exact ih _ _
  | tell n next ih => exact ih _

theorem run_rescue (c : Cloud σ) (p : Program α) (h : Error → Program α) (s : σ) :
    (p.rescue h).run c s =
      match p.run c s with
      | (.ok a, t) => (.ok a, t)
      | (.error e, t) => (h e).run c t := by
  induction p generalizing s with
  | done x => cases x <;> rfl
  | ask r next ih => exact ih _ _
  | tell n next ih => exact ih _

end Program

end Balancer
