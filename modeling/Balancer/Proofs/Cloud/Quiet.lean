import Balancer.Error
import Balancer.Cloud.Program

/-!
# Programs but for their notices

* `Program.quiet` : a program that asks the same and tells nothing. A cloud that hears nothing cannot tell the
  difference (`run_quiet`);
* `Agree X p q` : programs that ask the same in the same order whatever is answered, and end alike.
  If `X` does not hold, both may also refuse at once because of declared actions that cannot be read,
  and name different ones.
-/

namespace Balancer

set_option autoImplicit false

/-- The error of a declared action that cannot be read. -/
def Error.IsAction (e : Error) : Prop :=
  ∃ name, e = .configuration (.actionShape name) ∨ ∃ text, e = .configuration (.actionText name text)

/-- A cloud that hears nothing. -/
def Cloud.IsDeaf {σ : Type} (c : Cloud σ) : Prop := ∀ n s, c.hear n s = s

/-- A result that is the error of a declared action that cannot be read. -/
def IsActionFault {α : Type} (x : Except Error α) : Prop := ∃ e, x = .error e ∧ e.IsAction

/-- One result or error, or a declared action that cannot be read both times, which `X` rules out. -/
def SameEnd (X : Prop) {α : Type} (x y : Except Error α) : Prop :=
  x = y ∨ ¬ X ∧ IsActionFault x ∧ IsActionFault y

namespace Program

variable {α β σ : Type} {X : Prop}

/-- A program without its notices. -/
def quiet : Program α → Program α
  | done x => done x
  | ask r next => ask r fun x => (next x).quiet
  | tell _ next => next.quiet

/-- A program that asks nothing, because of a declared action that cannot be read. -/
def IsFaulty (p : Program α) : Prop := ∃ x, p.quiet = done x ∧ IsActionFault x

/-- Programs that ask the same and end alike. -/
def Agree (X : Prop) (p q : Program α) : Prop := p.quiet = q.quiet ∨ ¬ X ∧ p.IsFaulty ∧ q.IsFaulty

theorem quiet_bind (p : Program α) (f : α → Program β) :
    (p >>= f).quiet = p.quiet >>= fun a => (f a).quiet := by
  show (p.bind f).quiet = p.quiet.bind fun a => (f a).quiet
  induction p with
  | done x => cases x <;> rfl
  | ask r next ih => simp only [Program.bind, quiet, ih]
  | tell n next ih => exact ih

/-- A cloud that hears nothing cannot tell whether something was told. -/
theorem run_quiet {c : Cloud σ} (h : c.IsDeaf) (p : Program α) (s : σ) : p.quiet.run c s = p.run c s := by
  induction p generalizing s with
  | done x => rfl
  | ask r next ih => exact ih _ _
  | tell n next ih =>
    show next.quiet.run c s = next.run c (c.hear n s)
    rw [h n s]
    exact ih s

variable {p q r : Program α}

theorem IsFaulty.of_quiet (h : p.IsFaulty) (hpq : p.quiet = q.quiet) : q.IsFaulty := by
  rwa [IsFaulty, ← hpq]

theorem IsFaulty.bind (h : p.IsFaulty) (f : α → Program β) : (p >>= f).IsFaulty := by
  obtain ⟨_, hp, e, rfl, he⟩ := h
  refine ⟨.error e, ?_, e, rfl, he⟩
  rw [quiet_bind, hp]
  rfl

theorem Agree.of_eq (h : p = q) : Agree X p q := .inl (congrArg quiet h)

theorem Agree.symm (h : Agree X p q) : Agree X q p := h.imp Eq.symm fun h => ⟨h.1, h.2.2, h.2.1⟩

theorem Agree.trans (h : Agree X p q) (h' : Agree X q r) : Agree X p r := by
  rcases h with h | ⟨hX, hp, hq⟩
  · exact h'.imp h.trans fun h' => ⟨h'.1, h'.2.1.of_quiet h.symm, h'.2.2⟩
  · rcases h' with h' | ⟨-, -, hr⟩
    · exact .inr ⟨hX, hp, hq.of_quiet h'⟩
    · exact .inr ⟨hX, hp, hr⟩

theorem Agree.bind (h : Agree X p q) {f g : α → Program β} (hfg : ∀ a, (f a).quiet = (g a).quiet) :
    Agree X (p >>= f) (q >>= g) := by
  rcases h with h | ⟨hX, hp, hq⟩
  · refine .inl ?_
    rw [quiet_bind, quiet_bind, h]
    exact congrArg _ (funext hfg)
  · exact .inr ⟨hX, hp.bind f, hq.bind g⟩

/-- Programs that agree make the same of every cloud that hears nothing. -/
theorem Agree.run {c : Cloud σ} (h : Agree X p q) (hc : c.IsDeaf) (s : σ) :
    (p.run c s).2 = (q.run c s).2 ∧ SameEnd X (p.run c s).1 (q.run c s).1 := by
  rw [← run_quiet hc p, ← run_quiet hc q]
  rcases h with h | ⟨hX, ⟨x, hp, hx⟩, y, hq, hy⟩
  · rw [h]
    exact ⟨rfl, .inl rfl⟩
  · rw [hp, hq]
    exact ⟨rfl, .inr ⟨hX, hx, hy⟩⟩

end Program

end Balancer
