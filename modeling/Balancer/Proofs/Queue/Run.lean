import Balancer.Queue
import Mathlib.Data.List.Pairwise

/-!
# Runs of the queue

Producers, timers and workers share one queue. An `Event` is what one of them does to it, and a `Run` is a row
of events in any order; the only rule is that a worker gives back what it has (`Step.done`).

* `Still q r` : `r` has the marks of `q`; `Step.effect` says once what an event does to the marks;
* `Session.Safe` : what holds all along a run (`Step.safe`, `Run.safe`);
* `Run.held_or_done`, `Run.dirty_or_got` : a worker has its key until it is done with it, and a key is
  dirty until it is handed out;
* `Orderly`, `run_orderly` : what is true of every run of a new queue.
-/

namespace Balancer

set_option autoImplicit false

/-! ## Marks -/

namespace Queue

variable {q r : Queue} {k k' : Key}

/-- The keys that wait, are dirty and are processed are the same. -/
structure Still (q r : Queue) : Prop where
  waiting : r.waiting = q.waiting
  dirty : r.dirty = q.dirty
  processing : r.processing = q.processing

theorem Still.refl (q : Queue) : Still q q := ⟨rfl, rfl, rfl⟩

theorem fail_still (q : Queue) (k : Key) : Still q (q.fail k).2 := ⟨rfl, rfl, rfl⟩

theorem add_cases (q : Queue) (k : Key) :
    q.add k = q ∧ (q.shuttingDown = true ∨ q.dirty.contains k = true) ∨
      (q.dirty.contains k = false ∧ (q.add k).dirty = mark k q.dirty ∧ (q.add k).processing = q.processing ∧
        (q.add k).waiting = if q.processing.contains k then q.waiting else q.waiting ++ [k]) := by
  unfold add
  by_cases hold : (q.shuttingDown || q.dirty.contains k) = true
  · rw [if_pos hold]
    exact .inl ⟨rfl, by simpa using hold⟩
  · have hdirty : q.dirty.contains k = false := by
      rw [Bool.or_eq_true, not_or] at hold
      simpa using hold.2
    rw [if_neg hold]
    by_cases hp : q.processing.contains k = true
    · rw [if_pos hp, if_pos hp]
      exact .inr ⟨hdirty, rfl, rfl, rfl⟩
    · rw [if_neg hp, if_neg hp]
      exact .inr ⟨hdirty, rfl, rfl, rfl⟩

/-- What was added to a queue that is not shut down is dirty. -/
theorem dirty_add (hq : q.shuttingDown = false) : (q.add k).dirty.contains k = true := by
  rcases add_cases q k with ⟨hadd, hdown | hdirty⟩ | ⟨-, hdirty, -, -⟩
  · simp [hq] at hdown
  · rw [hadd, hdirty]
  · rw [hdirty, contains_mark]
    simp

/-- A key that is added after a delay is added at once or not yet. -/
theorem addAfter_still (q : Queue) (k : Key) (delay : Float) :
    q.addAfter k delay = q.add k ∨ Still q (q.addAfter k delay) := by
  unfold addAfter
  split
  · exact .inl rfl
  · split
    · exact .inr (Still.refl q)
    · exact .inr ⟨rfl, rfl, rfl⟩

theorem addRateLimited_still (q : Queue) (k : Key) :
    (∃ r, Still q r ∧ (q.addRateLimited k).2 = r.add k) ∨ Still q (q.addRateLimited k).2 := by
  have hfail := fail_still q k
  unfold addRateLimited
  split
  · rename_i delay r h
    rw [h] at hfail
    rcases addAfter_still r k delay with hadd | hstill
    · exact .inl ⟨r, hfail, hadd⟩
    · exact .inr ⟨hstill.waiting.trans hfail.waiting, hstill.dirty.trans hfail.dirty,
        hstill.processing.trans hfail.processing⟩
  · rename_i r h
    rw [h] at hfail
    exact .inr hfail

@[simp] theorem add_shuttingDown (q : Queue) (k : Key) : (q.add k).shuttingDown = q.shuttingDown := by
  unfold add
  split
  · rfl
  · split <;> rfl

@[simp] theorem addAfter_shuttingDown (q : Queue) (k : Key) (delay : Float) :
    (q.addAfter k delay).shuttingDown = q.shuttingDown := by
  unfold addAfter
  split
  · exact q.add_shuttingDown k
  · split <;> rfl

@[simp] theorem addRateLimited_shuttingDown (q : Queue) (k : Key) :
    (q.addRateLimited k).2.shuttingDown = q.shuttingDown := by
  have hfail : (q.fail k).2.shuttingDown = q.shuttingDown := rfl
  unfold addRateLimited
  split
  · rename_i h
    rw [h] at hfail
    rw [addAfter_shuttingDown, hfail]
  · rename_i h
    rw [h] at hfail
    exact hfail

@[simp] theorem get_shuttingDown (q : Queue) : q.get.2.shuttingDown = q.shuttingDown := by
  unfold get
  split <;> rfl

theorem done_eq (q : Queue) (k : Key) :
    q.done k = { q with
      processing := unmark k q.processing
      waiting := if q.dirty.contains k then q.waiting ++ [k] else q.waiting } := by
  by_cases h : q.dirty.contains k = true
  · rw [if_pos h]
    exact if_pos h
  · rw [if_neg h]
    exact if_neg h

/-! ## Events -/

/-- What happens to a queue, each in one hold of its lock. `addAfter`, `fire` and `addRateLimited` let go of
it halfway; their halves are events too. -/
inductive Event where
  | add (k : Key)
  | addAfter (k : Key) (delay : Float)
  /-- A timer is pending no more. -/
  | expire (t : Timer)
  | fire (t : Timer)
  | fail (k : Key)
  | addRateLimited (k : Key)
  | forget (k : Key)
  /-- A worker asks for a key, with the answer. -/
  | get (worker : Nat) (answer : Option Key)
  | done (worker : Nat) (k : Key)
  | shutDown

/-- The key that an event adds at once. -/
def Event.added? : Event → Option Key
  | .add k => some k
  | .addAfter k delay => if delay ≤ 0 then some k else none
  | .fire t => some t.key
  | _ => none

/-- A queue, and what its workers have. -/
structure Session where
  queue : Queue
  held : List (Nat × Key) := []

/-- A new queue. -/
def Session.start (baseDelay maxDelay : Float) : Session := { queue := { baseDelay, maxDelay } }

/-- The queue changed, with the workers as before. -/
def Session.on (s : Session) (f : Queue → Queue) : Session := { s with queue := f s.queue }

/-- One event. Anybody can do anything at any time, but a worker is done only with a key that it has. -/
inductive Step : Session → Event → Session → Prop
  | add (s : Session) (k : Key) : Step s (.add k) (s.on (·.add k))
  | addAfter (s : Session) (k : Key) (delay : Float) : Step s (.addAfter k delay) (s.on (·.addAfter k delay))
  | expire (s : Session) (t : Timer) : Step s (.expire t)
    (s.on fun q => { q with timers := q.timers.erase t })
  | fire (s : Session) (t : Timer) : Step s (.fire t) (s.on (·.fire t))
  | fail (s : Session) (k : Key) : Step s (.fail k) (s.on fun q => (q.fail k).2)
  | addRateLimited (s : Session) (k : Key) : Step s (.addRateLimited k) (s.on fun q => (q.addRateLimited k).2)
  | forget (s : Session) (k : Key) : Step s (.forget k) (s.on (·.forget k))
  | get (s : Session) (w : Nat) {answer : Option Key} {q : Queue} (h : s.queue.get = (answer, q)) :
      Step s (.get w answer) ⟨q, answer.toList.map (w, ·) ++ s.held⟩
  | done (s : Session) {w : Nat} {k : Key} (h : (w, k) ∈ s.held) :
      Step s (.done w k) ⟨s.queue.done k, s.held.filter fun has => !(has.1 == w && has.2 == k)⟩
  | shutDown (s : Session) : Step s .shutDown (s.on (·.shutDown))

/-- Events one after the other. -/
inductive Run : Session → List Event → Session → Prop
  | nil (s : Session) : Run s [] s
  | cons {s t u : Session} {e : Event} {es : List Event} (h : Step s e t)
    (hs : Run t es u) : Run s (e :: es) u

section

variable {s t u : Session} {e : Event} {es es' : List Event} {w w' : Nat} {k k' : Key}

theorem Run.append (h : Run s es t) (h' : Run t es' u) : Run s (es ++ es') u := by
  induction h with
  | nil => exact h'
  | cons hstep _ ih => exact .cons hstep (ih h')

theorem Run.head (h : Run s (e :: es) u) : ∃ t, Step s e t ∧ Run t es u := by
  obtain - | ⟨hstep, hrest⟩ := h
  exact ⟨_, hstep, hrest⟩

theorem Run.split (h : Run s (es ++ es') u) : ∃ t, Run s es t ∧ Run t es' u := by
  induction es generalizing s with
  | nil => exact ⟨s, .nil s, h⟩
  | cons e es ih =>
    obtain ⟨a, hstep, hrest⟩ := h.head
    obtain ⟨t, ht, hu⟩ := ih hrest
    exact ⟨t, .cons hstep ht, hu⟩

/-- What an event does to the marks: nothing, or what an add, a get or a done does. -/
inductive Effect (s : Session) : Event → Session → Prop
  | still {e : Event} {t : Session} (h : Still s.queue t.queue) (held : t.held = s.held) : Effect s e t
  | add {e : Event} {t : Session} {q : Queue} (k : Key) (h : Still s.queue q) (hadd : t.queue = q.add k)
      (held : t.held = s.held) : Effect s e t
  | get {w : Nat} {k : Key} {ks : List Key} {q : Queue} (h : s.queue.waiting = k :: ks) (hw : q.waiting = ks)
      (hd : q.dirty = unmark k s.queue.dirty) (hp : q.processing = mark k s.queue.processing) :
      Effect s (.get w (some k)) ⟨q, (w, k) :: s.held⟩
  | done {w : Nat} {k : Key} (h : (w, k) ∈ s.held) :
      Effect s (.done w k) ⟨s.queue.done k, s.held.filter fun has => !(has.1 == w && has.2 == k)⟩

theorem Step.effect (h : Step s e t) : Effect s e t := by
  cases h with
  | add k => exact .add k (.refl _) rfl rfl
  | addAfter k delay =>
    rcases addAfter_still s.queue k delay with hadd | hstill
    · exact .add k (.refl _) hadd rfl
    · exact .still hstill rfl
  | expire t => exact .still ⟨rfl, rfl, rfl⟩ rfl
  | fire t =>
    exact .add (q := { s.queue with timers := s.queue.timers.erase t }) t.key ⟨rfl, rfl, rfl⟩ rfl rfl
  | fail k => exact .still (fail_still _ k) rfl
  | addRateLimited k =>
    rcases addRateLimited_still s.queue k with ⟨q, hq, hadd⟩ | hstill
    · exact .add k hq hadd rfl
    · exact .still hstill rfl
  | forget k => exact .still ⟨rfl, rfl, rfl⟩ rfl
  | get w hget =>
    unfold Queue.get at hget
    split at hget
    · cases hget
      exact .still (.refl _) rfl
    · rename_i k ks hwaiting
      cases hget
      exact .get hwaiting rfl rfl rfl
  | done hheld => exact .done hheld
  | shutDown => exact .still ⟨rfl, rfl, rfl⟩ rfl

/-! ## Safety -/

/-- The waiting keys are the dirty ones that no worker has, each once, and the keys in processing are those
that a worker has, each one only. -/
structure Session.Safe (s : Session) : Prop where
  distinct : Distinct s.queue.waiting
  waiting (k : Key) : s.queue.waiting.contains k =
    (s.queue.dirty.contains k && !s.queue.processing.contains k)
  processing (k : Key) : s.queue.processing.contains k = true ↔ ∃ has ∈ s.held, (has.2 == k) = true
  held : s.held.Pairwise fun a b => (a.2 == b.2) = false

namespace Session.Safe

theorem start (baseDelay maxDelay : Float) : (Session.start baseDelay maxDelay).Safe where
  distinct := .nil
  waiting k := by simp [Session.start]
  processing k := by simp [Session.start]
  held := .nil

theorem still (hs : s.Safe) (h : Still s.queue t.queue) (held : t.held = s.held) : t.Safe where
  distinct := by
    rw [h.waiting]
    exact hs.distinct
  waiting k := by
    rw [h.waiting, h.dirty, h.processing]
    exact hs.waiting k
  processing k := by
    rw [h.processing, held]
    exact hs.processing k
  held := by
    rw [held]
    exact hs.held

theorem add (hs : s.Safe) (k : Key) : (s.on (·.add k)).Safe := by
  have hwaiting := hs.waiting k
  rcases add_cases s.queue k with ⟨hadd, -⟩ | ⟨hdirty, hd, hp, hw⟩
  · exact hs.still (t := s.on (·.add k)) (hadd ▸ .refl _) rfl
  rw [hdirty, Bool.false_and] at hwaiting
  refine ⟨?_, fun k' => ?_, fun k' => ?_, hs.held⟩
  · show Distinct (s.queue.add k).waiting
    rw [hw]
    split
    · exact hs.distinct
    · have hmark : s.queue.waiting ++ [k] = mark k s.queue.waiting := by simp [mark, hwaiting]
      rw [hmark]
      exact distinct_mark hs.distinct
  · show (s.queue.add k).waiting.contains k' =
      ((s.queue.add k).dirty.contains k' && !(s.queue.add k).processing.contains k')
    rw [hw, hd, hp, contains_mark]
    by_cases hk : (k' == k) = true
    · rw [hk, List.contains_congr (l := s.queue.processing) hk]
      split
      · rename_i hhas
        rw [List.contains_congr hk, hwaiting, hhas]
        rfl
      · rename_i hhas
        simp [hk, hhas]
    · split
      · simp [hk, hs.waiting]
      · simp [hk, hs.waiting]
  · show (s.queue.add k).processing.contains k' = true ↔ _
    rw [hp]
    exact hs.processing k'

theorem get {q : Queue} {ks : List Key} (hs : s.Safe) (h : s.queue.waiting = k :: ks) (hw : q.waiting = ks)
    (hd : q.dirty = unmark k s.queue.dirty) (hp : q.processing = mark k s.queue.processing) :
    Session.Safe ⟨q, (w, k) :: s.held⟩ := by
  have hdistinct := hs.distinct
  rw [h] at hdistinct
  obtain ⟨hks, hdistinct⟩ := List.pairwise_cons.1 hdistinct
  have hfree : s.queue.processing.contains k = false := by
    have hk := hs.waiting k
    rw [h, List.contains_cons, BEq.rfl, Bool.true_or] at hk
    simpa using (Bool.and_eq_true_iff.1 hk.symm).2
  refine ⟨hw ▸ hdistinct, fun k' => ?_, fun k' => ?_, List.pairwise_cons.2 ⟨fun has hmem => ?_, hs.held⟩⟩
  · show q.waiting.contains k' = (q.dirty.contains k' && !q.processing.contains k')
    have hk' := hs.waiting k'
    rw [h, List.contains_cons] at hk'
    rw [hw, hd, hp, contains_unmark, contains_mark]
    by_cases hkk : (k' == k) = true
    · have hnot : ks.contains k' = false := by
        rw [List.contains_congr hkk, Bool.eq_false_iff]
        intro hc
        obtain ⟨a, ha, hka⟩ := List.contains_iff_exists_mem_beq.1 hc
        exact Bool.eq_false_iff.1 (hks a ha) hka
      simp [hkk, hnot]
    · simpa [hkk] using hk'
  · show q.processing.contains k' = true ↔ ∃ has ∈ (w, k) :: s.held, (has.2 == k') = true
    rw [hp, contains_mark, Bool.or_eq_true, hs.processing, BEq.comm]
    simp
  · rw [Bool.eq_false_iff]
    intro heq
    exact Bool.eq_false_iff.1 hfree ((hs.processing k).2 ⟨has, hmem, BEq.symm heq⟩)

/-- A key has one holder. -/
theorem holder_eq {a b : Nat × Key} (hs : s.Safe) (ha : a ∈ s.held) (hb : b ∈ s.held)
    (h : (a.2 == b.2) = true) : a = b := by
  have : Std.Symm fun a b : Nat × Key => (a.2 == b.2) = false := ⟨fun _ _ h => BEq.comm.trans h⟩
  refine Classical.byContradiction fun hne => ?_
  exact Bool.eq_false_iff.1 (hs.held.forall ha hb hne) h

theorem done (hs : s.Safe) (h : (w, k) ∈ s.held) :
    Session.Safe ⟨s.queue.done k, s.held.filter fun has => !(has.1 == w && has.2 == k)⟩ := by
  have hhas : s.queue.processing.contains k = true := (hs.processing k).2 ⟨_, h, BEq.rfl⟩
  have hnot : s.queue.waiting.contains k = false := by
    rw [hs.waiting, hhas]
    simp
  have hmark : s.queue.waiting ++ [k] = mark k s.queue.waiting := by simp [mark, hnot]
  rw [done_eq, hmark]
  refine ⟨?_, fun k' => ?_, fun k' => ?_, hs.held.filter _⟩
  · dsimp only
    split
    · exact distinct_mark hs.distinct
    · exact hs.distinct
  · dsimp only
    rw [contains_unmark]
    by_cases hk : (k' == k) = true
    · have hdirty : s.queue.dirty.contains k' = s.queue.dirty.contains k := List.contains_congr hk
      have hk' : s.queue.waiting.contains k' = false := (List.contains_congr hk).trans hnot
      rw [hk, hdirty]
      split
      · rename_i hadded
        simp [contains_mark, hk, hadded]
      · rename_i hadded
        simp [hk', hadded]
    · split
      · simp [contains_mark, hk, hs.waiting]
      · simp [hk, hs.waiting]
  · dsimp only
    rw [contains_unmark, Bool.and_eq_true, hs.processing]
    constructor
    · rintro ⟨hne, has, hmem, heq⟩
      have hother : (has.2 == k) = false := by
        rw [BEq.congr_left heq]
        simpa using hne
      exact ⟨has, List.mem_filter.2 ⟨hmem, by simp [hother]⟩, heq⟩
    · rintro ⟨has, hmem, heq⟩
      obtain ⟨hmem, hother⟩ := List.mem_filter.1 hmem
      refine ⟨?_, has, hmem, heq⟩
      rw [Bool.not_eq_true', Bool.eq_false_iff]
      intro hk
      have hsame := hs.holder_eq hmem h (BEq.trans heq hk)
      simp [hsame] at hother

end Session.Safe

theorem Step.safe (h : Step s e t) (hs : s.Safe) : t.Safe := by
  cases h.effect with
  | still hstill held => exact hs.still hstill held
  | @add _ _ q k hstill hadd held =>
    have hq : Session.Safe ⟨q, s.held⟩ := hs.still hstill rfl
    obtain ⟨r, h⟩ := t
    cases hadd
    cases held
    exact hq.add k
  | get hw hw' hd hp => exact hs.get hw hw' hd hp
  | done hheld => exact hs.done hheld

theorem Run.safe (h : Run s es t) (hs : s.Safe) : t.Safe := by
  induction h with
  | nil => exact hs
  | cons hstep _ ih => exact ih (hstep.safe hs)

/-- The next key to be handed out is with no worker. -/
theorem Session.Safe.get_free (hs : s.Safe) (h : s.queue.get.1 = some k) :
    s.queue.processing.contains k = false := by
  unfold Queue.get at h
  split at h
  · cases h
  · rename_i k ks hwaiting
    cases h
    have hk := hs.waiting k
    rw [hwaiting, List.contains_cons, BEq.rfl, Bool.true_or] at hk
    simpa using (Bool.and_eq_true_iff.1 hk.symm).2

/-! ## What happens to a key -/

/-- A worker has its key until it is done with it. -/
theorem Step.held_or_done (h : Step s e t) (hs : s.Safe) (hheld : (w, k) ∈ s.held) :
    (w, k) ∈ t.held ∨ e = .done w k := by
  cases h.effect with
  | still _ held => exact .inl (held ▸ hheld)
  | add _ _ _ held => exact .inl (held ▸ hheld)
  | get => exact .inl (List.mem_cons_of_mem _ hheld)
  | @done w' k' hheld' =>
    by_cases hk : (k == k') = true
    · cases hs.holder_eq hheld hheld' hk
      exact .inr rfl
    · exact .inl (List.mem_filter.2 ⟨hheld, by simp [hk]⟩)

theorem Run.held_or_done (h : Run s es t) (hs : s.Safe) (hheld : (w, k) ∈ s.held) :
    (w, k) ∈ t.held ∨ .done w k ∈ es := by
  induction h with
  | nil => exact .inl hheld
  | cons hstep _ ih =>
    rcases hstep.held_or_done hs hheld with hheld | rfl
    · exact (ih (hstep.safe hs) hheld).imp_right (List.mem_cons_of_mem _)
    · exact .inr List.mem_cons_self

theorem Step.dirty_or_got (h : Step s e t) (hk : s.queue.dirty.contains k = true) :
    t.queue.dirty.contains k = true ∨ ∃ w k', e = .get w (some k') ∧ (k' == k) = true := by
  cases h.effect with
  | still hstill _ => exact .inl (hstill.dirty ▸ hk)
  | @add _ _ q k' hstill hadd _ =>
    left
    rw [← hstill.dirty] at hk
    rw [hadd]
    rcases add_cases q k' with ⟨hadd, -⟩ | ⟨-, hdirty, -, -⟩
    · rw [hadd, hk]
    · rw [hdirty, contains_mark, hk, Bool.or_true]
  | @get w k' ks q _ _ hd _ =>
    by_cases hkk : (k' == k) = true
    · exact .inr ⟨w, k', rfl, hkk⟩
    · left
      show q.dirty.contains k = true
      rw [hd, contains_unmark, hk, BEq.comm]
      simpa using hkk
  | done =>
    left
    rw [done_eq]
    exact hk

/-- A key is dirty until it is handed out. -/
theorem Run.dirty_or_got (h : Run s es t) (hk : s.queue.dirty.contains k = true) :
    t.queue.dirty.contains k = true ∨ ∃ w k', .get w (some k') ∈ es ∧ (k' == k) = true := by
  induction h with
  | nil => exact .inl hk
  | cons hstep _ ih =>
    rcases hstep.dirty_or_got hk with hk | ⟨w, k', rfl, hkk⟩
    · exact (ih hk).imp_right fun ⟨w, k', hmem, hkk⟩ => ⟨w, k', List.mem_cons_of_mem _ hmem, hkk⟩
    · exact .inr ⟨w, k', List.mem_cons_self, hkk⟩

/-- Only `shutDown` shuts a queue down. -/
theorem Step.shuttingDown (h : Step s e t) (he : e ≠ .shutDown) :
    t.queue.shuttingDown = s.queue.shuttingDown := by
  cases h with
  | add k => exact s.queue.add_shuttingDown k
  | addAfter k delay => exact s.queue.addAfter_shuttingDown k delay
  | fire t => exact add_shuttingDown _ t.key
  | addRateLimited k => exact s.queue.addRateLimited_shuttingDown k
  | get w hget =>
    have hq := s.queue.get_shuttingDown
    rw [hget] at hq
    exact hq
  | done =>
    rw [done_eq]
  | shutDown => exact absurd rfl he
  | expire | fail | forget => rfl

theorem Run.shuttingDown (h : Run s es t) (he : .shutDown ∉ es) :
    t.queue.shuttingDown = s.queue.shuttingDown := by
  induction h with
  | nil => rfl
  | cons hstep _ ih =>
    obtain ⟨hne, hes⟩ := List.ne_and_not_mem_of_not_mem_cons he
    rw [ih hes, hstep.shuttingDown hne.symm]

theorem Step.dirty_added (h : Step s e t) (he : e.added? = some k) (hs : s.queue.shuttingDown = false) :
    t.queue.dirty.contains k = true := by
  cases h with
  | add k' =>
    cases he
    exact dirty_add hs
  | addAfter k' delay =>
    unfold Event.added? at he
    dsimp only at he
    split at he
    · rename_i hdelay
      cases he
      show (s.queue.addAfter k delay).dirty.contains k = true
      rw [Queue.addAfter, if_pos hdelay]
      exact dirty_add hs
    · cases he
  | fire t =>
    cases he
    exact dirty_add hs
  | _ => cases he

/-! ## Every run -/

/-- A run from a new queue, with what it led to, keeps to the rules. -/
structure Orderly (es : List Event) (s : Session) : Prop where
  /-- No key waits twice. -/
  distinct : Distinct s.queue.waiting
  /-- The waiting keys are the dirty ones that are not processed. -/
  waiting (k : Key) : s.queue.waiting.contains k =
    (s.queue.dirty.contains k && !s.queue.processing.contains k)
  /-- The keys in processing are those that workers have. -/
  processing (k : Key) : s.queue.processing.contains k = true ↔ ∃ has ∈ s.held, (has.2 == k) = true
  /-- The next key to be handed out is not processed. -/
  free (k : Key) : s.queue.get.1 = some k → s.queue.processing.contains k = false
  /-- A key was handed out again only after its worker was done with it. -/
  exclusive (before during after : List Event) (w w' : Nat) (k k' : Key) :
    es = before ++ .get w (some k) :: (during ++ .get w' (some k') :: after) →
      (k' == k) = true → .done w k ∈ during
  /-- A key that was added before the queue was shut down was handed out since or is still dirty. -/
  kept (before after : List Event) (e : Event) (k : Key) :
    es = before ++ e :: after → e.added? = some k → .shutDown ∉ before →
      s.queue.dirty.contains k = true ∨ ∃ w k', .get w (some k') ∈ after ∧ (k' == k) = true
  /-- If nothing is waiting and nothing is processed, nothing is dirty. -/
  idle : s.queue.waiting = [] → s.queue.processing = [] → s.queue.dirty = []

theorem Session.Safe.idle (hs : s.Safe) (hw : s.queue.waiting = []) (hp : s.queue.processing = []) :
    s.queue.dirty = [] := by
  refine List.eq_nil_iff_forall_not_mem.2 fun k hk => ?_
  have hdirty : s.queue.dirty.contains k = true := List.contains_iff_exists_mem_beq.2 ⟨k, hk, BEq.rfl⟩
  have hwaiting := hs.waiting k
  rw [hw, hp, hdirty] at hwaiting
  simp at hwaiting

theorem run_orderly {baseDelay maxDelay : Float} (h : Run (.start baseDelay maxDelay) es s) :
    Orderly es s := by
  have hstart := Session.Safe.start baseDelay maxDelay
  have hs := h.safe hstart
  refine ⟨hs.distinct, hs.waiting, hs.processing, fun k => hs.get_free, ?_, ?_, hs.idle⟩
  · rintro before during after w w' k k' rfl hk
    obtain ⟨a, ha, hrest⟩ := h.split
    obtain ⟨b, hget, hrest⟩ := hrest.head
    obtain ⟨c, hbc, hrest⟩ := hrest.split
    obtain ⟨d, hget', -⟩ := hrest.head
    have hb : b.Safe := hget.safe (ha.safe hstart)
    have hheld : (w, k) ∈ b.held := by
      cases hget
      exact List.mem_cons_self
    rcases hbc.held_or_done hb hheld with hheld | hdone
    · -- A worker still has the key: it is processed, and cannot be handed out.
      have hprocessing := ((hbc.safe hb).processing k').2 ⟨(w, k), hheld, BEq.symm hk⟩
      cases hget' with
      | get _ hget' => rw [(hbc.safe hb).get_free (by rw [hget'])] at hprocessing; cases hprocessing
    · exact hdone
  · rintro before after e k rfl he hdown
    obtain ⟨a, ha, hrest⟩ := h.split
    obtain ⟨b, hadd, hrest⟩ := hrest.head
    have hopen : a.queue.shuttingDown = false := ha.shuttingDown hdown
    exact hrest.dirty_or_got (hadd.dirty_added he hopen)

/-- A Service that changes while a worker has its key is handed out again, and only
when that worker is done. -/
theorem changed_during_processing_orderly : ∃ s,
    Run (.start 1 300) [.add (.text "a/web"), .get 1 (some (.text "a/web")),
      .add (.text "a/web"), .get 2 none,
      .done 1 (.text "a/web"), .shutDown, .get 2 (some (.text "a/web"))] s ∧
    Orderly [.add (.text "a/web"), .get 1 (some (.text "a/web")), .add (.text "a/web"), .get 2 none,
      .done 1 (.text "a/web"), .shutDown, .get 2 (some (.text "a/web"))] s := by
  have run := Run.cons (.add (.start 1 300) (.text "a/web")) <| .cons (.get _ 1 rfl) <|
    .cons (.add _ (.text "a/web")) <|
    .cons (.get _ 2 rfl) <| .cons (.done _ (w := 1) (k := .text "a/web") List.mem_cons_self) <|
      .cons (.shutDown _) <|
    .cons (.get _ 2 rfl) (.nil _)
  exact ⟨_, run, run_orderly run⟩

end

end Queue

end Balancer
