import Balancer.Proofs.Cloud.Run

/-!
# Stopping a run

* `Program.memoryAt k p m` : the memory in which a run asks its `k`-th request, if it asks so many;
* `Context.stopping` : the gate of a context that the operator stops before a given request;
* `SurvivesStop p m` : stopped before any of its requests the program ends with the error of the context,
  having recorded what it records before that request in an undisturbed run, and done again it ends as
  the undisturbed run does; `survivesStop_of_resumes` : so it is if the program can be done again from
  all states that it visits.
-/

namespace Balancer

set_option autoImplicit false

/-- The gate of a context that is stopped when as many requests as the number says have passed. -/
def Context.stopping : Gate (Nat × Context) where
  allow _ c :=
    match c.1 with
    | 0 => ((({ c.2 with stopped := true } : Context).check).1,
      (0, (({ c.2 with stopped := true } : Context).check).2))
    | k + 1 => (c.2.check.1, (k, c.2.check.2))
  hear n c := (c.1, c.2.hear n)

/-- What a context hears does not bound it. -/
theorem Context.hear_bounds (n : Notice) (c : Context) : (c.hear n).stopped = c.stopped ∧
    (c.hear n).deadline = c.deadline ∧ (c.hear n).key = c.key := by
  unfold hear
  split
  · exact ⟨rfl, rfl, rfl⟩
  · split <;> exact ⟨rfl, rfl, rfl⟩
  · exact ⟨rfl, rfl, rfl⟩

namespace Program

variable {α : Type}

/-- The memory in which a run asks its `k`-th request, counted from zero; none if it asks fewer. -/
def memoryAt : Program α → Nat → Memory → Option Memory
  | done _, _, _ => none
  | ask _ _, 0, m => some m
  | ask r next, k + 1, m => (next (m.perform r).1).memoryAt k (m.perform r).2
  | tell _ next, k, m => next.memoryAt k m

theorem FailsWith.memoryAt {e : Error} {p : Program α} (h : p.FailsWith e) (k : Nat) (m : Memory) :
    p.memoryAt k m = none := by
  induction p with
  | done x => rfl
  | ask r next ih => exact h.elim
  | tell n next ih => exact ih h

theorem visits_of_memoryAt {p : Program α} {k : Nat} {m cut : Memory} (h : p.memoryAt k m = some cut) :
    p.Visits m.resources cut.resources := by
  induction p generalizing k m with
  | done x => cases h
  | ask r next ih =>
    cases k with
    | zero =>
      cases h
      exact .inl rfl
    | succ k =>
      unfold memoryAt at h
      rw [Memory.perform_eq] at h
      exact .inr (ih _ (m := ⟨(m.resources.perform r).2, m.records ++ m.resources.recorded r⟩) h)
  | tell n next ih => exact ih h

/-- What is recorded before a request is recorded first. -/
theorem records_memoryAt {p : Program α} {k : Nat} {m cut : Memory} (h : p.memoryAt k m = some cut) :
    cut.records <+: (p.run Memory.bare m).2.records := by
  induction p generalizing k m with
  | done x => cases h
  | ask r next ih =>
    cases k with
    | zero =>
      cases h
      rw [show cut = ⟨cut.resources, cut.records⟩ from rfl, run_bare]
      exact List.prefix_append _ _
    | succ k => exact ih _ h
  | tell n next ih => exact ih h

/-- A strict program that is stopped before a request ends with the error of the context, and
leaves what there was then. -/
theorem Strict.run_stopped {p : Program α} (hp : p.Strict) {k : Nat} {m cut : Memory} {c : Context}
    (h : p.memoryAt k m = some cut) (hstopped : c.stopped = false) (hdeadline : c.deadline = none) :
    ∃ c', p.run (Memory.cloud Context.stopping) ((k, c), m) = (.error (.stopping c.key), (c', cut)) := by
  induction p generalizing k m c with
  | done x => cases h
  | ask r next ih =>
    cases k with
    | zero =>
      cases h
      obtain ⟨c', hrun⟩ := (hp.1 (.stopping c.key)).run Context.stopping (0, { c with stopped := true }) cut
      exact ⟨c', hrun⟩
    | succ k =>
      have hcheck : c.check = (.ok (), c) := by simp [Context.check, hstopped, hdeadline]
      unfold memoryAt at h
      simp only [Program.run, Memory.cloud, Context.stopping, hcheck]
      cases hx : (m.perform r).1 with
      | error e =>
        rw [hx, (hp.1 e).memoryAt] at h
        cases h
      | ok a =>
        rw [hx] at h
        exact ih (.ok a) (hp.2 a) h hstopped hdeadline
  | tell n next ih =>
    obtain ⟨hs, hd, hk⟩ := Context.hear_bounds n c
    obtain ⟨c', hrun⟩ := ih hp h (hs.trans hstopped) (hd.trans hdeadline)
    rw [hk] at hrun
    exact ⟨c', hrun⟩

/-- Stopped before any of its requests, the program ends with the error of the context, having
recorded what an undisturbed run records before that request. Done again it ends as the undisturbed
run does, in the same resources. -/
def SurvivesStop (p : Program α) (m : Memory) : Prop :=
  ∀ a m', p.run (Memory.cloud Gate.free) ((), m) = (.ok a, ((), m')) →
    ∀ k cut, p.memoryAt k m = some cut →
      (∀ c : Context, c.stopped = false → c.deadline = none →
        ∃ c', p.run (Memory.cloud Context.stopping) ((k, c), m) = (.error (.stopping c.key), (c', cut))) ∧
      cut.records <+: m'.records ∧
      ∃ m'', p.run (Memory.cloud Gate.free) ((), cut) = (.ok a, ((), m'')) ∧ m''.resources = m'.resources

theorem survivesStop_of_resumes {p : Program α} {m : Memory} (hp : p.Strict) (h : p.Resumes id m.resources) :
    p.SurvivesStop m := by
  intro a m' hrun k cut hcut
  obtain ⟨rs, -, hends⟩ := run_free_eq_ok_iff.1 hrun
  obtain ⟨a', ⟨rs', hends'⟩, rfl⟩ := h a m'.resources cut.resources hends.yields (visits_of_memoryAt hcut)
  refine ⟨fun c hstopped hdeadline => hp.run_stopped hcut hstopped hdeadline, ?_,
    ⟨m'.resources, cut.records ++ rs'⟩, ?_, rfl⟩
  · have hrecords := records_memoryAt hcut
    rw [run_free] at hrun
    rwa [(Prod.mk.inj (Prod.mk.inj hrun).2).2] at hrecords
  · exact run_free_eq_ok_iff.2 ⟨rs', rfl, hends'⟩

end Program

end Balancer
