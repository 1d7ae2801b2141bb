import Balancer.Proofs.Cloud.Run

/-!
# One program on two clouds

* `Twin R Q p s t` : on the resources `s` and `t` the program asks the same requests and gets answers that it
  goes on from in the same way; wherever it is cut off, the two states are related by `R`, and if it
  succeeds, by `Q` as well;
* `Twin.bind` and the lemmas beside it put two such runs together;
* `InStep R r s t` : one request leaves related states with one answer; `Asks.twin` : a
  program of such requests;
* `Twin.run` : behind any gate both runs end alike, in related states, having recorded the same.
-/

namespace Balancer.Program

set_option autoImplicit false

variable {α β : Type}

/-- A program does the same on two clouds, and leaves them related wherever it is cut off. -/
def Twin (R : Resources → Resources → Prop) (Q : α → Resources → Resources → Prop) :
    Program α → Resources → Resources → Prop
  | done x, s, t => R s t ∧ ∀ a, x = .ok a → Q a s t
  | ask r next, s, t =>
    s.recorded r = t.recorded r ∧ next (s.perform r).1 = next (t.perform r).1 ∧
      (∀ e, (next (.error e)).Twin R Q s t) ∧ (next (s.perform r).1).Twin R Q (s.perform r).2 (t.perform r).2
  | tell _ next, s, t => next.Twin R Q s t

/-- A request leaves related states with one answer. -/
structure InStep (R : Resources → Resources → Prop) (r : Request) (s t : Resources) : Prop where
  recorded : s.recorded r = t.recorded r
  answer : (s.perform r).1 = (t.perform r).1
  after : R (s.perform r).2 (t.perform r).2

section

variable {R R' : Resources → Resources → Prop} {Q Q' : α → Resources → Resources → Prop}
  {S : β → Resources → Resources → Prop} {p : Program α} {f : α → Program β}
  {r : Request} {s t u v : Resources}

theorem Twin.mono (h : p.Twin R Q s t) (hR : ∀ u v, R u v → R' u v)
    (hQ : ∀ a u v, R u v → Q a u v → Q' a u v) :
    p.Twin R' Q' s t := by
  induction p generalizing s t with
  | done x => exact ⟨hR s t h.1, fun a ha => hQ a s t h.1 (h.2 a ha)⟩
  | ask r next ih => exact ⟨h.1, h.2.1, fun e => ih _ (h.2.2.1 e), ih _ h.2.2.2⟩
  | tell n next ih => exact ih h

/-- What follows a program starts from where both runs of it ended. -/
theorem Twin.bind (hp : p.Twin R Q s t) (hf : ∀ a u v, R u v → Q a u v → (f a).Twin R S u v) :
    (p >>= f).Twin R S s t := by
  show (p.bind f).Twin R S s t
  induction p generalizing s t with
  | done x =>
    cases x with
    | ok a => exact hf a s t hp.1 (hp.2 a rfl)
    | error e => exact ⟨hp.1, fun b hb => nomatch hb⟩
  | ask r next ih =>
    obtain ⟨hrec, hnext, hrefused, hafter⟩ := hp
    exact ⟨hrec, congrArg (Program.bind · f) hnext, fun e => ih _ (hrefused e), ih _ hafter⟩
  | tell n next ih => exact ih hp

theorem twin_pure {a : α} (h : R s t) (hQ : Q a s t) : (pure a : Program α).Twin R Q s t := by
  refine ⟨h, fun b hb => ?_⟩
  cases hb
  exact hQ

theorem twin_throw {e : Error} (h : R s t) : (throw e : Program α).Twin R Q s t := ⟨h, fun _ hb => nomatch hb⟩

theorem twin_lift_bind {x : Except Error α} (h : R s t) (hf : ∀ a, x = .ok a → (f a).Twin R S s t) :
    ((liftM x : Program α) >>= f).Twin R S s t := by
  cases x with
  | ok a => exact hf a rfl
  | error e => exact ⟨h, fun _ hb => nomatch hb⟩

theorem twin_notice {n : Notice} {Q : Unit → Resources → Resources → Prop} (h : R s t) (hQ : Q () s t) :
    (notice n).Twin R Q s t := twin_pure h hQ

theorem twin_info {reason text : String} {Q : Unit → Resources → Resources → Prop}
    (h : R s t) (hQ : Q () s t) :
    (info reason text).Twin R Q s t := twin_notice h hQ

theorem twin_ite {c : Prop} [Decidable c] {p q : Program α} (hp : c → p.Twin R Q s t)
    (hq : ¬ c → q.Twin R Q s t) :
    (if c then p else q).Twin R Q s t := by
  split
  · rename_i h
    exact hp h
  · rename_i h
    exact hq h

theorem twin_answer (h : R s t) (hr : InStep R r s t) {Q : r.Answer → Resources → Resources → Prop}
    (hQ : ∀ a, (s.perform r).1 = .ok a → Q a (s.perform r).2 (t.perform r).2) : (answer r).Twin R Q s t :=
  ⟨hr.recorded, congrArg done hr.answer, fun _ => twin_throw h, hr.after, hQ⟩

/-- The two answers may differ if the program goes on from both in one way. -/
theorem twin_answer_bind {f : r.Answer → Program β} {a b : r.Answer} (h : R s t)
    (hrec : s.recorded r = t.recorded r) (ha : s.perform r = (.ok a, u)) (hb : t.perform r = (.ok b, v))
    (hf : f a = f b) (hu : (f a).Twin R S u v) :
    (answer r >>= f).Twin R S s t := by
  refine ⟨hrec, ?_, fun _ => twin_throw h, ?_⟩
  · rw [ha, hb]
    exact hf
  · rw [ha, hb]
    exact hu

theorem Twin.warning (h : p.Twin R Q s t) (reason : String) (text : Error → String) :
    (p.warning reason text).Twin R Q s t := by
  unfold Program.warning
  induction p generalizing s t with
  | done x =>
    cases x with
    | ok a => exact h
    | error e => exact twin_throw h.1
  | ask r next ih => exact ⟨h.1, congrArg (Program.rescue · _) h.2.1, fun e => ih _ (h.2.2.1 e), ih _ h.2.2.2⟩
  | tell n next ih => exact ih h

/-! ## Programs of one sort of requests -/

/-- All requests of a program are of one sort, whatever is answered. -/
def Asks (P : Request → Prop) : Program α → Prop
  | done _ => True
  | ask r next => P r ∧ ∀ x, (next x).Asks P
  | tell _ next => next.Asks P

section

variable {P : Request → Prop}

theorem asks_pure (a : α) : (pure a : Program α).Asks P := trivial

theorem asks_lift (x : Except Error α) : (liftM x : Program α).Asks P := trivial

theorem asks_info (reason text : String) : (info reason text).Asks P := trivial

theorem asks_answer (h : P r) : (answer r).Asks P := ⟨h, fun _ => trivial⟩

theorem asks_ite {c : Prop} [Decidable c] {p q : Program α} (hp : p.Asks P) (hq : q.Asks P) :
    (if c then p else q).Asks P := by
  split
  · exact hp
  · exact hq

theorem Asks.bind (hp : p.Asks P) (hf : ∀ a, (f a).Asks P) : (p >>= f).Asks P := by
  show (p.bind f).Asks P
  induction p with
  | done x =>
    cases x with
    | ok a => exact hf a
    | error e => trivial
  | ask r next ih => exact ⟨hp.1, fun x => ih x (hp.2 x)⟩
  | tell n next ih => exact ih hp

theorem asks_lift_bind {x : Except Error α} (hf : ∀ a, x = .ok a → (f a).Asks P) :
    ((liftM x : Program α) >>= f).Asks P := by
  cases x with
  | ok a => exact hf a rfl
  | error e => trivial

theorem Asks.warning (hp : p.Asks P) (reason : String) (text : Error → String) :
    (p.warning reason text).Asks P := by
  unfold Program.warning
  induction p with
  | done x => cases x <;> trivial
  | ask r next ih => exact ⟨hp.1, fun x => ih x (hp.2 x)⟩
  | tell n next ih => exact ih hp

/-- If every request of the sort leaves related states with one answer, so does the program. -/
theorem Asks.twin (hp : p.Asks P) (hstep : ∀ r u v, P r → R u v → InStep R r u v) (h : R s t) :
    p.Twin R (fun _ _ _ => True) s t := by
  induction p generalizing s t with
  | done x => exact ⟨h, fun _ _ => trivial⟩
  | ask r next ih =>
    have hr := hstep r s t hp.1 h
    exact ⟨hr.recorded, congrArg next hr.answer, fun e => ih _ (hp.2 _) h, ih _ (hp.2 _) hr.after⟩
  | tell n next ih => exact ih hp h

end

/-! ## Behind a gate -/

/-- Behind any gate both runs end alike, with the same requests before: they have one result, leave the gate
in one state and record the same. -/
theorem Twin.run {γ : Type} (h : p.Twin R Q s t) (g : Gate γ) (c : γ) (before before' : List Record) :
    ∃ x c' rs u v, p.run (Memory.cloud g) (c, ⟨s, before⟩) = (x, (c', ⟨u, before ++ rs⟩)) ∧
      p.run (Memory.cloud g) (c, ⟨t, before'⟩) = (x, (c', ⟨v, before' ++ rs⟩)) ∧ R u v ∧
      ∀ a, x = .ok a → Q a u v := by
  induction p generalizing s t c before before' with
  | done x =>
    refine ⟨x, c, [], s, t, ?_, ?_, h.1, h.2⟩
    · rw [List.append_nil]
      rfl
    · rw [List.append_nil]
      rfl
  | ask r next ih =>
    obtain ⟨hrec, hnext, hrefused, hafter⟩ := h
    simp only [Program.run, Memory.cloud]
    rcases g.allow r c with ⟨e | _, c'⟩
    · exact ih _ (hrefused e) c' before before'
    · obtain ⟨x, c'', rs, u, v, hu, hv, hRQ⟩ :=
        ih _ hafter c' (before ++ s.recorded r) (before' ++ s.recorded r)
      rw [List.append_assoc] at hu hv
      refine ⟨x, c'', s.recorded r ++ rs, u, v, ?_, ?_, hRQ⟩
      · rw [Memory.perform_eq]
        exact hu
      · rw [Memory.perform_eq, ← hrec]
        rw [hnext] at hv
        exact hv
  | tell n next ih => exact ih h (g.hear n c) before before'

end

end Balancer.Program
