import Balancer.Cloud.Context
import Balancer.Cloud.Resources

/-!
# Runs over a cloud in memory

What a program does to the resources of a cloud in memory, apart from gates and from what was recorded before:

* `Ends p s a rs t` : from the resources `s` the program ends with `a`, having recorded `rs`, and leaves `t`;
  `ends_bind` takes a run apart; `Yields p s a t` : the same, whatever is recorded;
* `Visits p s u` : `u` is a state between two requests of the run, or its last one, whatever the run ends with
  (`visits_bind`); `Always I p s` : all visited states satisfy `I`;
* `Resumes v p s` : done again from any visited state, the program leaves what it left
  at first (`Resumes.bind`);
* `Does p s a t` : a single step; programs of such steps are taken apart by
  `Does.yields_bind_iff` and `Does.visits_bind`;
* `Strict p` : an error of the cloud is the error of the program, and nothing is asked after it. A strict
  program behind any gate ends in a visited state (`Strict.visits_run`), and if it succeeds there it does so
  without a gate (`Strict.ends_run`).
-/

namespace Balancer

set_option autoImplicit false

/-- The cloud in memory without a gate. -/
def Memory.bare : Cloud Memory where
  perform r m := m.perform r
  hear _ m := m

namespace Resources

/-- The answer to a request and what it leaves. -/
def perform (s : Resources) (r : Request) : Except Error r.Answer × Resources :=
  (((⟨s, []⟩ : Memory).perform r).1, ((⟨s, []⟩ : Memory).perform r).2.resources)

/-- What is recorded of a request. -/
def recorded (s : Resources) (r : Request) : List Record := ((⟨s, []⟩ : Memory).perform r).2.records

theorem perform_eq (s : Resources) (r : Request) :
    s.perform r =
      match do s.refusal r; r.record? with
      | .error e => (.error e, s)
      | .ok _ => s.effect r := by
  unfold perform Memory.perform
  cases (do s.refusal r; r.record?) <;> rfl

end Resources

theorem Memory.perform_eq (m : Memory) (r : Request) :
    m.perform r = ((m.resources.perform r).1,
      ⟨(m.resources.perform r).2, m.records ++ m.resources.recorded r⟩) := by
  unfold Resources.perform Resources.recorded Memory.perform
  cases (do m.resources.refusal r; r.record?) <;> simp

namespace Program

variable {α β γ ω : Type}

theorem liftM_bind (x : Except Error α) (f : α → Except Error β) :
    (liftM (x >>= f) : Program β) = (liftM x : Program α) >>= fun a => liftM (f a) := by
  cases x <;> rfl

theorem liftM_pure (a : α) : (liftM (pure a : Except Error α) : Program α) = pure a := rfl

theorem mapM_liftM (f : α → Except Error β) (xs : List α) :
    (xs.mapM fun x => (liftM (f x) : Program β)) = liftM (xs.mapM f) := by
  induction xs with
  | nil => rfl
  | cons x xs ih => simp only [List.mapM_cons, ih, liftM_bind, liftM_pure]

theorem filterM_liftM (p : α → Except Error Bool) (xs : List α) :
    (xs.filterM fun x => (liftM (p x) : Program Bool)) = liftM (xs.filterM p) := by
  have haux : ∀ acc, (xs.filterAuxM (fun x => (liftM (p x) : Program Bool)) acc) =
      liftM (xs.filterAuxM p acc) := by
    induction xs with
    | nil => exact fun _ => rfl
    | cons x xs ih =>
      intro acc
      simp only [List.filterAuxM, ih, liftM_bind]
  simp only [List.filterM, haux, liftM_bind, liftM_pure]

theorem run_lift_bind {σ : Type} {x : Except Error α} {a : α} (h : x = .ok a) {c : Cloud σ}
    {f : α → Program β} {s : σ} :
    ((liftM x : Program α) >>= f).run c s = (f a).run c s := by
  rw [h]
  rfl

/-! ## Successful runs -/

/-- A run from some resources that succeeds, with its result, what it records and what it leaves. -/
def Ends (p : Program α) (s : Resources) (a : α) (rs : List Record) (t : Resources) : Prop :=
  p.run Memory.bare ⟨s, []⟩ = (.ok a, ⟨t, rs⟩)

/-- What was recorded before has no part in a run. -/
theorem run_bare (p : Program α) (s : Resources) (rs : List Record) :
    p.run Memory.bare ⟨s, rs⟩ = ((p.run Memory.bare ⟨s, []⟩).1,
      ⟨(p.run Memory.bare ⟨s, []⟩).2.resources, rs ++ (p.run Memory.bare ⟨s, []⟩).2.records⟩) := by
  induction p generalizing s rs with
  | done x => simp [run]
  | ask r next ih =>
    simp only [run, Memory.bare]
    rw [Memory.perform_eq, Memory.perform_eq]
    simp only [List.nil_append]
    have h := ih (s.perform r).1 (s.perform r).2
    simp only [Memory.bare] at h
    rw [h (rs ++ s.recorded r), h (s.recorded r), List.append_assoc]
  | tell n next ih => exact ih s rs

theorem run_bare_of_ends {p : Program α} {s t : Resources} {a : α} {rs : List Record} (h : p.Ends s a rs t)
    (before : List Record) : p.run Memory.bare ⟨s, before⟩ = (.ok a, ⟨t, before ++ rs⟩) := by
  rw [run_bare, h]

theorem ends_of_run_bare {p : Program α} {m m' : Memory} {a : α} (h : p.run Memory.bare m = (.ok a, m')) :
    ∃ rs, m'.records = m.records ++ rs ∧ p.Ends m.resources a rs m'.resources := by
  rw [show m = ⟨m.resources, m.records⟩ from rfl, run_bare] at h
  obtain ⟨hx, hm⟩ := Prod.mk.inj h
  refine ⟨(p.run Memory.bare ⟨m.resources, []⟩).2.records, (congrArg Memory.records hm).symm, ?_⟩
  rw [Ends, ← congrArg Memory.resources hm, ← hx]

/-- A program has one successful run at most. -/
theorem Ends.unique {p : Program α} {s t t' : Resources} {a a' : α} {rs rs' : List Record}
    (h : p.Ends s a rs t) (h' : p.Ends s a' rs' t') : a' = a ∧ rs' = rs ∧ t' = t := by
  rw [Ends, h] at h'
  cases h'
  exact ⟨rfl, rfl, rfl⟩

theorem ends_bind {p : Program α} {f : α → Program β} {s u : Resources} {b : β} {rs : List Record} :
    (p >>= f).Ends s b rs u ↔ ∃ a r₁ t r₂, p.Ends s a r₁ t ∧ (f a).Ends t b r₂ u ∧ rs = r₁ ++ r₂ := by
  unfold Ends
  rw [run_bind]
  constructor
  · intro h
    split at h
    · rename_i a m hp
      obtain ⟨r₂, hr, hf⟩ := ends_of_run_bare h
      exact ⟨a, m.records, m.resources, r₂, hp, hf, hr⟩
    · cases h
  · rintro ⟨a, r₁, t, r₂, hp, hf, rfl⟩
    rw [hp]
    exact run_bare_of_ends hf r₁

@[simp] theorem ends_pure {a b : α} {s t : Resources} {rs : List Record} :
    (pure a : Program α).Ends s b rs t ↔ b = a ∧ rs = [] ∧ t = s := by
  simp only [Ends, run_pure, Prod.mk.injEq, Except.ok.injEq, Memory.mk.injEq]
  exact ⟨fun ⟨h, ht, hr⟩ => ⟨h.symm, hr.symm, ht.symm⟩, fun ⟨h, hr, ht⟩ => ⟨h.symm, ht.symm, hr.symm⟩⟩

@[simp] theorem ends_throw {e : Error} {b : α} {s t : Resources} {rs : List Record} :
    (throw e : Program α).Ends s b rs t ↔ False := by
  simp [Ends]

@[simp] theorem ends_lift {x : Except Error α} {b : α} {s t : Resources} {rs : List Record} :
    (liftM x : Program α).Ends s b rs t ↔ x = .ok b ∧ rs = [] ∧ t = s := by
  show (x, (⟨s, []⟩ : Memory)) = _ ↔ _
  simp only [Prod.mk.injEq, Memory.mk.injEq]
  exact ⟨fun ⟨h, ht, hr⟩ => ⟨h, hr.symm, ht.symm⟩, fun ⟨h, hr, ht⟩ => ⟨h, ht.symm, hr.symm⟩⟩

@[simp] theorem ends_notice {n : Notice} {s t : Resources} {u : Unit} {rs : List Record} :
    (notice n).Ends s u rs t ↔ rs = [] ∧ t = s := by
  show ((.ok (), (⟨s, []⟩ : Memory)) : Except Error Unit × Memory) = _ ↔ _
  simp only [Prod.mk.injEq, Memory.mk.injEq, true_and]
  exact ⟨fun ⟨ht, hr⟩ => ⟨hr.symm, ht.symm⟩, fun ⟨hr, ht⟩ => ⟨ht.symm, hr.symm⟩⟩

@[simp] theorem ends_info {reason text : String} {s t : Resources} {u : Unit} {rs : List Record} :
    (info reason text).Ends s u rs t ↔ rs = [] ∧ t = s := ends_notice

@[simp] theorem ends_answer {r : Request} {a : r.Answer} {s t : Resources} {rs : List Record} :
    (answer r).Ends s a rs t ↔ s.perform r = (.ok a, t) ∧ rs = s.recorded r := by
  simp only [Ends, run_answer, Memory.bare, Memory.perform_eq, List.nil_append]
  constructor
  · intro h
    obtain ⟨hx, hm⟩ := Prod.mk.inj h
    exact ⟨Prod.ext hx (congrArg Memory.resources hm), (congrArg Memory.records hm).symm⟩
  · rintro ⟨h, rfl⟩
    rw [h]

@[simp] theorem ends_warning {p : Program α} {reason : String} {text : Error → String}
    {s t : Resources} {a : α} {rs : List Record} :
    (p.warning reason text).Ends s a rs t ↔ p.Ends s a rs t := by
  simp only [Ends, warning, run_rescue]
  split
  · rename_i h
    rw [h]
  · rename_i e m h
    rw [h, run_bind]
    simp [warn]

theorem ends_lift_bind {x : Except Error α} {f : α → Program β} {s t : Resources} {b : β} {rs : List Record} :
    ((liftM x : Program α) >>= f).Ends s b rs t ↔ ∃ a, x = .ok a ∧ (f a).Ends s b rs t := by
  rw [ends_bind]
  constructor
  · rintro ⟨a, r₁, u, r₂, hx, hf, rfl⟩
    obtain ⟨h, rfl, rfl⟩ := ends_lift.1 hx
    exact ⟨a, h, hf⟩
  · rintro ⟨a, hx, hf⟩
    exact ⟨a, [], s, rs, ends_lift.2 ⟨hx, rfl, rfl⟩, hf, rfl⟩

theorem ends_answer_bind {r : Request} {f : r.Answer → Program β} {s t : Resources}
    {b : β} {rs : List Record} :
    (answer r >>= f).Ends s b rs t ↔
      ∃ a u rs', s.perform r = (.ok a, u) ∧ (f a).Ends u b rs' t ∧ rs = s.recorded r ++ rs' := by
  rw [ends_bind]
  constructor
  · rintro ⟨a, r₁, u, r₂, hp, hf, rfl⟩
    obtain ⟨h, rfl⟩ := ends_answer.1 hp
    exact ⟨a, u, r₂, h, hf, rfl⟩
  · rintro ⟨a, u, r₂, hp, hf, rfl⟩
    exact ⟨a, _, u, r₂, ends_answer.2 ⟨hp, rfl⟩, hf, rfl⟩

/-- A request that changes and records nothing. -/
theorem ends_read_bind {r : Request} {f : r.Answer → Program β} {s t : Resources} {a : r.Answer}
    {b : β} {rs : List Record} (h : s.perform r = (.ok a, s)) (hr : s.recorded r = []) :
    (answer r >>= f).Ends s b rs t ↔ (f a).Ends s b rs t := by
  rw [ends_answer_bind]
  constructor
  · rintro ⟨a', u, rs', ha, hf, rfl⟩
    rw [h] at ha
    cases ha
    rwa [hr]
  · exact fun hf => ⟨a, s, rs, h, hf, by rw [hr]; rfl⟩

/-- A run starts with the answer to its first request. -/
theorem ends_ask {r : Request} {next : Except Error r.Answer → Program α} {s t : Resources}
    {a : α} {rs : List Record} :
    (ask r next).Ends s a rs t ↔
      ∃ rs', rs = s.recorded r ++ rs' ∧ (next (s.perform r).1).Ends (s.perform r).2 a rs' t := by
  simp only [Ends, run]
  show (next (Memory.perform _ r).1).run Memory.bare (Memory.perform _ r).2 = _ ↔ _
  rw [Memory.perform_eq, run_bare]
  constructor
  · intro h
    obtain ⟨hx, hm⟩ := Prod.mk.inj h
    obtain rfl := congrArg Memory.resources hm
    exact ⟨_, (congrArg Memory.records hm).symm, Prod.ext hx rfl⟩
  · rintro ⟨rs', rfl, h⟩
    rw [h]
    rfl

/-- A run from some resources that succeeds, with its result and what it leaves, whatever it records. -/
def Yields (p : Program α) (s : Resources) (a : α) (t : Resources) : Prop := ∃ rs, p.Ends s a rs t

theorem Ends.yields {p : Program α} {s t : Resources} {a : α} {rs : List Record}
    (h : p.Ends s a rs t) : p.Yields s a t :=
  ⟨rs, h⟩

theorem Yields.unique {p : Program α} {s t t' : Resources} {a a' : α} (h : p.Yields s a t)
    (h' : p.Yields s a' t') :
    a' = a ∧ t' = t := by
  obtain ⟨rs, h⟩ := h
  obtain ⟨rs', h'⟩ := h'
  exact ⟨(h.unique h').1, (h.unique h').2.2⟩

theorem yields_bind {p : Program α} {f : α → Program β} {s u : Resources} {b : β} :
    (p >>= f).Yields s b u ↔ ∃ a t, p.Yields s a t ∧ (f a).Yields t b u := by
  constructor
  · rintro ⟨rs, h⟩
    obtain ⟨a, r₁, t, r₂, ha, hb, -⟩ := ends_bind.1 h
    exact ⟨a, t, ⟨r₁, ha⟩, r₂, hb⟩
  · rintro ⟨a, t, ⟨r₁, ha⟩, r₂, hb⟩
    exact ⟨_, ends_bind.2 ⟨a, r₁, t, r₂, ha, hb, rfl⟩⟩

@[simp] theorem yields_pure {a b : α} {s t : Resources} :
    (pure a : Program α).Yields s b t ↔ b = a ∧ t = s := by
  simp [Yields]

@[simp] theorem yields_throw {e : Error} {b : α} {s t : Resources} :
    (throw e : Program α).Yields s b t ↔ False := by
  simp [Yields]

@[simp] theorem yields_lift {x : Except Error α} {b : α} {s t : Resources} :
    (liftM x : Program α).Yields s b t ↔ x = .ok b ∧ t = s := by
  simp [Yields]

@[simp] theorem yields_answer {r : Request} {a : r.Answer} {s t : Resources} :
    (answer r).Yields s a t ↔ s.perform r = (.ok a, t) := by
  simp [Yields]

theorem yields_lift_bind {x : Except Error α} {f : α → Program β} {s t : Resources} {b : β} :
    ((liftM x : Program α) >>= f).Yields s b t ↔ ∃ a, x = .ok a ∧ (f a).Yields s b t := by
  rw [yields_bind]
  constructor
  · rintro ⟨a, u, ha, hb⟩
    obtain ⟨hx, rfl⟩ := yields_lift.1 ha
    exact ⟨a, hx, hb⟩
  · exact fun ⟨a, hx, hb⟩ => ⟨a, s, yields_lift.2 ⟨hx, rfl⟩, hb⟩

/-! ## Visited states -/

/-- A state in which a request of the run is asked, or in which the run ends. -/
def Visits : Program α → Resources → Resources → Prop
  | done _, s, u => u = s
  | ask r next, s, u => u = s ∨ (next (s.perform r).1).Visits (s.perform r).2 u
  | tell _ next, s, u => next.Visits s u

theorem visits_self (p : Program α) (s : Resources) : p.Visits s s := by
  induction p generalizing s with
  | done x => rfl
  | ask r next ih => exact .inl rfl
  | tell n next ih => exact ih s

theorem Yields.visits {p : Program α} {s t : Resources} {a : α} (h : p.Yields s a t) : p.Visits s t := by
  obtain ⟨rs, h⟩ := h
  induction p generalizing s rs with
  | done x => exact (congrArg (fun r => r.2.resources) h).symm
  | ask r next ih =>
    obtain ⟨rs', -, h⟩ := ends_ask.1 h
    exact .inr (ih _ _ h)
  | tell n next ih => exact ih rs h

theorem visits_bind {p : Program α} {f : α → Program β} {s u : Resources} :
    (p >>= f).Visits s u ↔ p.Visits s u ∨ ∃ a t, p.Yields s a t ∧ (f a).Visits t u := by
  show (p.bind f).Visits s u ↔ _
  induction p generalizing s with
  | done x =>
    cases x with
    | error e =>
      refine ⟨.inl, fun h => h.elim id ?_⟩
      rintro ⟨a, t, ⟨rs, h⟩, -⟩
      exact absurd h (by simp [Ends, run])
    | ok a =>
      constructor
      · exact fun h => .inr ⟨a, s, ⟨[], rfl⟩, h⟩
      · rintro (rfl | ⟨b, t, h, hf⟩)
        · exact visits_self _ _
        · obtain ⟨rfl, rfl⟩ := yields_pure.1 h
          exact hf
  | ask r next ih =>
    simp only [Program.bind, Visits, ih, Yields, ends_ask]
    constructor
    · rintro (h | h | ⟨a, t, ⟨rs, h⟩, hf⟩)
      · exact .inl (.inl h)
      · exact .inl (.inr h)
      · exact .inr ⟨a, t, ⟨_, rs, rfl, h⟩, hf⟩
    · rintro ((h | h) | ⟨a, t, ⟨_, rs, -, h⟩, hf⟩)
      · exact .inl h
      · exact .inr (.inl h)
      · exact .inr (.inr ⟨a, t, ⟨rs, h⟩, hf⟩)
  | tell n next ih => exact ih

@[simp] theorem visits_pure {a : α} {s u : Resources} : (pure a : Program α).Visits s u ↔ u = s := .rfl

@[simp] theorem visits_throw {e : Error} {s u : Resources} : (throw e : Program α).Visits s u ↔ u = s := .rfl

@[simp] theorem visits_lift {x : Except Error α} {s u : Resources} :
    (liftM x : Program α).Visits s u ↔ u = s := .rfl

@[simp] theorem visits_notice {n : Notice} {s u : Resources} : (notice n).Visits s u ↔ u = s := .rfl

@[simp] theorem visits_info {reason text : String} {s u : Resources} :
    (info reason text).Visits s u ↔ u = s := .rfl

@[simp] theorem visits_answer {r : Request} {s u : Resources} :
    (answer r).Visits s u ↔ u = s ∨ u = (s.perform r).2 := .rfl

@[simp] theorem visits_warning {p : Program α} {reason : String} {text : Error → String} {s u : Resources} :
    (p.warning reason text).Visits s u ↔ p.Visits s u := by
  unfold warning
  induction p generalizing s with
  | done x => cases x <;> exact .rfl
  | ask r next ih => exact or_congr .rfl (ih _)
  | tell n next ih => exact ih

theorem visits_lift_bind {x : Except Error α} {f : α → Program β} {s u : Resources} :
    ((liftM x : Program α) >>= f).Visits s u ↔ u = s ∨ ∃ a, x = .ok a ∧ (f a).Visits s u := by
  rw [visits_bind, visits_lift]
  refine or_congr .rfl ⟨?_, ?_⟩
  · rintro ⟨a, t, h, hf⟩
    obtain ⟨hx, rfl⟩ := yields_lift.1 h
    exact ⟨a, hx, hf⟩
  · rintro ⟨a, hx, hf⟩
    exact ⟨a, s, yields_lift.2 ⟨hx, rfl⟩, hf⟩

theorem visits_answer_bind {r : Request} {f : r.Answer → Program β} {s u : Resources} :
    (answer r >>= f).Visits s u ↔
      u = s ∨ u = (s.perform r).2 ∨ ∃ a t, s.perform r = (.ok a, t) ∧ (f a).Visits t u := by
  rw [visits_bind, visits_answer, or_assoc]
  refine or_congr .rfl (or_congr .rfl ⟨?_, ?_⟩)
  · rintro ⟨a, t, h, hf⟩
    exact ⟨a, t, yields_answer.1 h, hf⟩
  · rintro ⟨a, t, h, hf⟩
    exact ⟨a, t, yields_answer.2 h, hf⟩

/-- All visited states satisfy a condition. -/
def Always (I : Resources → Prop) (p : Program α) (s : Resources) : Prop := ∀ u, p.Visits s u → I u

theorem Always.yields {I : Resources → Prop} {p : Program α} {s t : Resources} {a : α} (h : p.Always I s)
    (he : p.Yields s a t) : I t := h t he.visits

theorem Always.start {I : Resources → Prop} {p : Program α} {s : Resources} (h : p.Always I s) : I s :=
  h s (visits_self p s)

theorem Always.bind {I : Resources → Prop} {p : Program α} {f : α → Program β}
    {s : Resources} (hp : p.Always I s) (hf : ∀ a t, p.Yields s a t → (f a).Always I t) :
    (p >>= f).Always I s := by
  intro u hu
  rcases visits_bind.1 hu with h | ⟨a, t, he, h⟩
  · exact hp u h
  · exact hf a t he u h

theorem Always.lift_bind {I : Resources → Prop} {x : Except Error α} {f : α → Program β}
    {s : Resources} (hs : I s) (hf : ∀ a, x = .ok a → (f a).Always I s) :
    ((liftM x : Program α) >>= f).Always I s := by
  intro u hu
  rcases visits_lift_bind.1 hu with rfl | ⟨a, ha, h⟩
  · exact hs
  · exact hf a ha u h

theorem Always.mono {I J : Resources → Prop} {p : Program α} {s : Resources} (h : p.Always I s)
    (hIJ : ∀ u, I u → J u) : p.Always J s := fun u hu => hIJ u (h u hu)

/-! ## Doing it again -/

/-- Done again from any state that a successful run visits, the program succeeds and leaves the same, with a
result of the same view. -/
def Resumes (v : α → ω) (p : Program α) (s : Resources) : Prop :=
  ∀ a t u, p.Yields s a t → p.Visits s u → ∃ a', p.Yields u a' t ∧ v a' = v a

/-- The program succeeds and leaves all as it is, with a result of a view; under a
condition it records nothing. -/
def Rests (q : Prop) (v : α → ω) (p : Program α) (u : Resources) (x : ω) : Prop :=
  ∃ a rs, p.Ends u a rs u ∧ v a = x ∧ (q → rs = [])

theorem Rests.bind {q : Prop} {v : α → γ} {w : β → ω} {p : Program α} {f : α → Program β}
    {u : Resources} {x : γ} {y : ω} (hp : p.Rests q v u x) (hf : ∀ a, v a = x → (f a).Rests q w u y) :
    (p >>= f).Rests q w u y := by
  obtain ⟨a, rs, ha, hv, hrs⟩ := hp
  obtain ⟨b, rs', hb, hw, hrs'⟩ := hf a hv
  exact ⟨b, _, ends_bind.2 ⟨a, rs, u, rs', ha, hb, rfl⟩, hw, fun hq => by rw [hrs hq, hrs' hq]; rfl⟩

theorem Rests.yields {q : Prop} {v : α → ω} {p : Program α} {u : Resources} {x : ω} (h : p.Rests q v u x) :
    ∃ a, p.Yields u a u ∧ v a = x := by
  obtain ⟨a, rs, ha, hv, -⟩ := h
  exact ⟨a, ha.yields, hv⟩

theorem Rests.mono {q q' : Prop} {v : α → ω} {p : Program α} {u : Resources} {x : ω}
    (h : p.Rests q v u x) (hq : q' → q) :
    p.Rests q' v u x := by
  obtain ⟨a, rs, ha, hv, hrs⟩ := h
  exact ⟨a, rs, ha, hv, fun h => hrs (hq h)⟩

theorem Rests.of_ends {q : Prop} {v : α → ω} {p : Program α} {u : Resources} {a : α} (h : p.Ends u a [] u) :
    p.Rests q v u (v a) := ⟨a, [], h, rfl, fun _ => rfl⟩

theorem Rests.lift_bind {q : Prop} {w : β → ω} {x : Except Error α} {f : α → Program β}
    {u : Resources} {a : α} {y : ω} (ha : x = .ok a) (hf : (f a).Rests q w u y) :
    ((liftM x : Program α) >>= f).Rests q w u y := by
  obtain ⟨b, rs, hb, hw⟩ := hf
  exact ⟨b, rs, ends_lift_bind.2 ⟨a, ha, hb⟩, hw⟩

/-- What follows may depend on more than the view of a result, as long as it gives results of one view. -/
theorem Resumes.bind_alike {v : α → γ} {w : β → ω} {p : Program α} {f : α → Program β} {s : Resources}
    (hp : p.Resumes v s)
    (hv : ∀ a a' u b t, v a' = v a → (f a).Yields u b t → ∃ b', (f a').Yields u b' t ∧ w b' = w b)
    (hf : ∀ a t, p.Yields s a t → (f a).Resumes w t)
    (hrest : ∀ a t u, p.Yields s a t → (f a).Visits t u → ∃ a', p.Yields u a' u ∧ v a' = v a) :
    (p >>= f).Resumes w s := by
  intro b t' u hb hu
  obtain ⟨a, t, ha, hb⟩ := yields_bind.1 hb
  rcases visits_bind.1 hu with hu | ⟨a', t₂, ha', hu⟩
  · obtain ⟨a', ha', hva⟩ := hp a t u ha hu
    obtain ⟨b', hb', hw⟩ := hv a a' t b t' hva hb
    exact ⟨b', yields_bind.2 ⟨a', t, ha', hb'⟩, hw⟩
  · obtain ⟨rfl, rfl⟩ := ha.unique ha'
    obtain ⟨b', hb', hw⟩ := hf a' t₂ ha b t' u hb hu
    obtain ⟨a, ha, hva⟩ := hrest a' t₂ u ha' hu
    obtain ⟨b'', hb'', hw'⟩ := hv a' a u b' t' hva hb'
    exact ⟨b'', yields_bind.2 ⟨a, u, ha, hb''⟩, hw'.trans hw⟩

theorem Resumes.bind {v : α → γ} {w : β → ω} {p : Program α} {f : α → Program β} {s : Resources}
    (hp : p.Resumes v s) (hv : ∀ a a', v a' = v a → f a' = f a)
    (hf : ∀ a t, p.Yields s a t → (f a).Resumes w t) (hrest : ∀ a t u, p.Yields s a t → (f a).Visits t u →
      ∃ a', p.Yields u a' u ∧ v a' = v a) : (p >>= f).Resumes w s :=
  hp.bind_alike (fun a a' u b t h hb => ⟨b, by rwa [hv a a' h], rfl⟩) hf hrest

theorem Resumes.lift_bind {w : β → ω} {x : Except Error α} {f : α → Program β} {s : Resources}
    (hf : ∀ a, x = .ok a → (f a).Resumes w s) : ((liftM x : Program α) >>= f).Resumes w s := by
  intro b t u hb hu
  obtain ⟨a, ha, hb⟩ := yields_lift_bind.1 hb
  have hu : (f a).Visits s u := by
    rcases visits_lift_bind.1 hu with rfl | ⟨a', ha', h⟩
    · exact visits_self _ _
    · rw [ha] at ha'
      cases ha'
      exact h
  obtain ⟨b', hb', hw⟩ := hf a ha b t u hb hu
  exact ⟨b', yields_lift_bind.2 ⟨a, ha, hb'⟩, hw⟩

theorem resumes_pure {w : β → ω} (b : β) (s : Resources) : (pure b : Program β).Resumes w s := by
  intro a t u he hu
  obtain rfl := visits_pure.1 hu
  exact ⟨a, he, rfl⟩

/-! ## Single steps -/

/-- The program succeeds, and changes the resources at once if it changes them. -/
def Does (p : Program α) (s : Resources) (a : α) (t : Resources) : Prop :=
  p.Yields s a t ∧ ∀ u, p.Visits s u → u = s ∨ u = t

theorem does_pure (a : α) (s : Resources) : (pure a : Program α).Does s a s :=
  ⟨yields_pure.2 ⟨rfl, rfl⟩, fun _ h => .inl h⟩

theorem does_answer {r : Request} {s t : Resources} {a : r.Answer} (h : s.perform r = (.ok a, t)) :
    (answer r).Does s a t := by
  refine ⟨yields_answer.2 h, fun u hu => ?_⟩
  rw [visits_answer, h] at hu
  exact hu

theorem Does.warning {p : Program α} {s t : Resources} {a : α} (h : p.Does s a t) (reason : String)
    (text : Error → String) : (p.warning reason text).Does s a t := by
  obtain ⟨⟨rs, he⟩, hv⟩ := h
  exact ⟨⟨rs, ends_warning.2 he⟩, fun u hu => hv u (visits_warning.1 hu)⟩

/-- After a step the rest runs on what it left. -/
theorem Does.yields_bind_iff {p : Program α} {f : α → Program β} {s t u : Resources} {a : α}
    {b : β} (h : p.Does s a t) :
    (p >>= f).Yields s b u ↔ (f a).Yields t b u := by
  rw [yields_bind]
  constructor
  · rintro ⟨a', t', ha, hb⟩
    obtain ⟨rfl, rfl⟩ := h.1.unique ha
    exact hb
  · exact fun hb => ⟨a, t, h.1, hb⟩

theorem Does.visits_bind {p : Program α} {f : α → Program β} {s t u : Resources} {a : α} (h : p.Does s a t)
    (hu : (p >>= f).Visits s u) : u = s ∨ (f a).Visits t u := by
  rcases Program.visits_bind.1 hu with hu | ⟨a', t', ha, hu⟩
  · refine (h.2 u hu).imp_right ?_
    rintro rfl
    exact visits_self _ _
  · obtain ⟨rfl, rfl⟩ := h.1.unique ha
    exact .inr hu

/-- The program ends with an error and changes nothing. -/
def Fails (p : Program α) (s : Resources) : Prop := (∀ a t, ¬ p.Yields s a t) ∧ ∀ u, p.Visits s u → u = s

theorem fails_lift {x : Except Error α} {e : Error} (h : x = .error e) (s : Resources) :
    (liftM x : Program α).Fails s :=
  ⟨fun _ _ hy => by simp [h] at hy, fun _ hu => visits_lift.1 hu⟩

theorem fails_answer {r : Request} {e : Error} {s : Resources} (h : s.perform r = (.error e, s)) :
    (answer r).Fails s := by
  constructor
  · intro a t ha
    have ha := yields_answer.1 ha
    rw [h] at ha
    cases ha
  · intro u hu
    rw [visits_answer, h] at hu
    exact hu.elim id id

theorem Fails.bind {p : Program α} {s : Resources} (h : p.Fails s) (f : α → Program β) :
    (p >>= f).Fails s := by
  constructor
  · intro b t hb
    obtain ⟨a, t', ha, -⟩ := yields_bind.1 hb
    exact h.1 a t' ha
  · intro u hu
    rcases Program.visits_bind.1 hu with hu | ⟨a, t', ha, -⟩
    · exact h.2 u hu
    · exact absurd ha (h.1 a t')

theorem Does.fails_bind {p : Program α} {f : α → Program β} {s : Resources} {a : α} (h : p.Does s a s)
    (hf : (f a).Fails s) :
    (p >>= f).Fails s :=
  ⟨fun b t hb => hf.1 b t (h.yields_bind_iff.1 hb), fun u hu => (h.visits_bind hu).elim id (hf.2 u)⟩

/-- A step can be done again if it has nothing left to do where it was done. -/
theorem Does.resumes {v : α → ω} {p : Program α} {s t : Resources} {a : α} (h : p.Does s a t)
    (hr : ∃ a', p.Yields t a' t ∧ v a' = v a) : p.Resumes v s := by
  intro b t' u hb hu
  obtain ⟨rfl, rfl⟩ := h.1.unique hb
  rcases h.2 u hu with rfl | rfl
  · exact ⟨b, hb, rfl⟩
  · exact hr

theorem Fails.resumes {v : α → ω} {p : Program α} {s : Resources} (h : p.Fails s) : p.Resumes v s :=
  fun a t _ ha => absurd ha (h.1 a t)

theorem does_lift {x : Except Error α} {a : α} (h : x = .ok a) (s : Resources) :
    (liftM x : Program α).Does s a s :=
  ⟨yields_lift.2 ⟨h, rfl⟩, fun _ hu => .inl (visits_lift.1 hu)⟩

theorem does_info (reason text : String) (s : Resources) : (info reason text).Does s () s :=
  ⟨⟨[], ends_info.2 ⟨rfl, rfl⟩⟩, fun _ hu => .inl (visits_info.1 hu)⟩

/-- A step after something that changes nothing. -/
theorem Does.before {p : Program α} {f : α → Program β} {s t : Resources} {a : α} {b : β} (hp : p.Does s a s)
    (hf : (f a).Does s b t) : (p >>= f).Does s b t :=
  ⟨hp.yields_bind_iff.2 hf.1, fun u hu => (hp.visits_bind hu).elim .inl (hf.2 u)⟩

/-- A step before something that changes nothing. -/
theorem Does.after {p : Program α} {f : α → Program β} {s t : Resources} {a : α} {b : β} (hp : p.Does s a t)
    (hf : (f a).Does t b t) : (p >>= f).Does s b t :=
  ⟨hp.yields_bind_iff.2 hf.1, fun u hu => (hp.visits_bind hu).imp_right fun h => (hf.2 u h).elim id id⟩

/-- A program that is run if a condition holds. -/
def doIf (b : Bool) (p : Program Unit) : Program Unit := if b then p else pure ()

theorem doIf_bind (b : Bool) (p : Program Unit) (f : Unit → Program β) :
    doIf b p >>= f = if b then p >>= f else f () := by
  cases b <;> rfl

theorem does_doIf {b : Bool} {p : Program Unit} {s t : Resources} (hp : b = true → p.Does s () t)
    (ht : b = false → t = s) : (doIf b p).Does s () t := by
  cases b with
  | false =>
    rw [ht rfl]
    exact does_pure () s
  | true => exact hp rfl

theorem rests_doIf {q : Prop} {v : Unit → ω} {b : Bool} {p : Program Unit} {u : Resources}
    (hp : b = true → p.Does u () u) (hq : q → b = false) : (doIf b p).Rests q v u (v ()) := by
  cases b with
  | false => exact Rests.of_ends (ends_pure.2 ⟨rfl, rfl, rfl⟩)
  | true =>
    obtain ⟨⟨rs, h⟩, -⟩ := hp rfl
    exact ⟨(), rs, h, rfl, fun h => nomatch hq h⟩

/-! ## Gates -/

/-- The program ends with an error and asks nothing before. -/
def FailsWith (e : Error) : Program α → Prop
  | done x => x = .error e
  | ask _ _ => False
  | tell _ next => next.FailsWith e

/-- An error of the cloud is the error of the program, and nothing is asked after it. -/
def Strict : Program α → Prop
  | done _ => True
  | ask _ next => (∀ e, (next (.error e)).FailsWith e) ∧ ∀ a, (next (.ok a)).Strict
  | tell _ next => next.Strict

theorem FailsWith.bind {e : Error} {p : Program α} (h : p.FailsWith e) (f : α → Program β) :
    (p >>= f).FailsWith e := by
  show (p.bind f).FailsWith e
  induction p with
  | done x =>
    cases h
    rfl
  | ask r next ih => exact h.elim
  | tell n next ih => exact ih h

theorem strict_pure (a : α) : (pure a : Program α).Strict := trivial

theorem strict_throw (e : Error) : (throw e : Program α).Strict := trivial

theorem strict_lift (x : Except Error α) : (liftM x : Program α).Strict := trivial

theorem strict_notice (n : Notice) : (notice n).Strict := trivial

theorem strict_info (reason text : String) : (info reason text).Strict := trivial

theorem strict_answer (r : Request) : (answer r).Strict := ⟨fun _ => rfl, fun _ => trivial⟩

theorem Strict.bind {p : Program α} {f : α → Program β} (hp : p.Strict) (hf : ∀ a, (f a).Strict) :
    (p >>= f).Strict := by
  show (p.bind f).Strict
  induction p with
  | done x =>
    cases x with
    | ok a => exact hf a
    | error e => trivial
  | ask r next ih => exact ⟨fun e => (hp.1 e).bind f, fun a => ih _ (hp.2 a)⟩
  | tell n next ih => exact ih hp

theorem Strict.warning {p : Program α} (hp : p.Strict) (reason : String) (text : Error → String) :
    (p.warning reason text).Strict := by
  have hfails : ∀ (q : Program α) e, q.FailsWith e → (q.warning reason text).FailsWith e := by
    intro q e h
    unfold Program.warning
    induction q with
    | done x =>
      cases h
      rfl
    | ask r next ih => exact h.elim
    | tell n next ih => exact ih h
  unfold Program.warning
  induction p with
  | done x => cases x <;> trivial
  | ask r next ih => exact ⟨fun e => hfails _ e (hp.1 e), fun a => ih _ (hp.2 a)⟩
  | tell n next ih => exact ih hp

theorem strict_ite {c : Prop} [Decidable c] {p q : Program α} (hp : p.Strict) (hq : q.Strict) :
    (if c then p else q).Strict := by
  split
  · exact hp
  · exact hq

section

variable {σ : Type} (g : Gate σ)

theorem FailsWith.run {e : Error} {p : Program α} (h : p.FailsWith e) (c : σ) (m : Memory) :
    ∃ c', p.run (Memory.cloud g) (c, m) = (.error e, (c', m)) := by
  induction p generalizing c with
  | done x =>
    cases h
    exact ⟨c, rfl⟩
  | ask r next ih => exact h.elim
  | tell n next ih => exact ih h (g.hear n c)

/-- What a strict program leaves behind a gate is a state that it visits without one. -/
theorem Strict.visits_run {p : Program α} (hp : p.Strict) (c : σ) (m : Memory) :
    p.Visits m.resources (p.run (Memory.cloud g) (c, m)).2.2.resources := by
  induction p generalizing c m with
  | done x => rfl
  | ask r next ih =>
    show _ ∨ _
    simp only [Program.run, Memory.cloud]
    rcases hg : g.allow r c with ⟨x | x, c'⟩
    · obtain ⟨c'', h⟩ := (hp.1 x).run g c' m
      left
      show (Program.run (Memory.cloud g) _ _).2.2.resources = _
      rw [h]
    · right
      show (next _).Visits _ (Program.run (Memory.cloud g) _ _).2.2.resources
      rw [Memory.perform_eq]
      cases hx : (m.resources.perform r).1 with
      | ok a =>
        have h := ih (.ok a) (hp.2 a) c' ⟨(m.resources.perform r).2, m.records ++ m.resources.recorded r⟩
        exact h
      | error e =>
        obtain ⟨c'', h⟩ := (hp.1 e).run g c' ⟨(m.resources.perform r).2, m.records ++ m.resources.recorded r⟩
        rw [h]
        exact visits_self _ _
  | tell n next ih => exact ih hp _ m

/-- A strict program that succeeds behind a gate does the same without it. -/
theorem Strict.ends_run {p : Program α} (hp : p.Strict) {c c' : σ} {m m' : Memory} {a : α}
    (h : p.run (Memory.cloud g) (c, m) = (.ok a, (c', m'))) :
    ∃ rs, m'.records = m.records ++ rs ∧ p.Ends m.resources a rs m'.resources := by
  suffices hrun : p.run Memory.bare m = (.ok a, m') from ends_of_run_bare hrun
  induction p generalizing c m with
  | done x =>
    cases h
    rfl
  | ask r next ih =>
    simp only [Program.run, Memory.cloud, Memory.bare] at h ⊢
    rcases hg : g.allow r c with ⟨x | x, c₁⟩
    · simp only [hg] at h
      obtain ⟨c₂, hf⟩ := (hp.1 x).run g c₁ m
      have := hf.symm.trans h
      cases this
    · simp only [hg] at h
      cases hx : (m.perform r).1 with
      | ok b =>
        rw [hx] at h
        exact ih (.ok b) (hp.2 b) h
      | error e =>
        rw [hx] at h
        obtain ⟨c₂, hf⟩ := (hp.1 e).run g c₁ (m.perform r).2
        have := hf.symm.trans h
        cases this
  | tell n next ih => exact ih hp h

end

/-- Without refusals a gate makes no difference. -/
theorem run_free (p : Program α) (m : Memory) :
    p.run (Memory.cloud Gate.free) ((), m) = ((p.run Memory.bare m).1, ((), (p.run Memory.bare m).2)) := by
  induction p generalizing m with
  | done x => rfl
  | ask r next ih => exact ih _ _
  | tell n next ih => exact ih _

theorem run_free_eq_ok_iff {p : Program α} {m m' : Memory} {a : α} :
    p.run (Memory.cloud Gate.free) ((), m) = (.ok a, ((), m')) ↔
      ∃ rs, m'.records = m.records ++ rs ∧ p.Ends m.resources a rs m'.resources := by
  rw [run_free]
  constructor
  · intro h
    obtain ⟨hx, hm⟩ := Prod.mk.inj h
    exact ends_of_run_bare (Prod.ext hx (Prod.mk.inj hm).2)
  · rintro ⟨rs, hr, h⟩
    have hrun := run_bare_of_ends h m.records
    rw [← hr] at hrun
    rw [show m = ⟨m.resources, m.records⟩ from rfl, hrun]

end Program

end Balancer
