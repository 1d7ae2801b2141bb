import Balancer.Proofs.Queue.Run

/-!
# A queue that is shut down

* `Closed q` : nothing comes into the queue any more (`Step.closed`);
* `Step.dirty_closed` : of the dirty keys of a closed queue an event leaves all, or hands one out; so the keys
  that are handed out and those that are still dirty make up the dirty ones of before (`Run.countP_closed`);
* `Drained`, `run_drained` : what is true of every run that goes on after the queue was shut down.
-/

namespace Balancer.Queue

set_option autoImplicit false

variable {q : Queue} {s t u : Session} {e : Event} {es es' : List Event} {k k' : Key} {ks : List Key}
  {p : Key → Bool}

/-- Nothing can be added, and no timer is pending. -/
structure Closed (q : Queue) : Prop where
  shuttingDown : q.shuttingDown = true
  timers : q.timers = []

theorem closed_shutDown (q : Queue) : q.shutDown.Closed := ⟨rfl, rfl⟩

theorem add_of_shuttingDown (hq : q.shuttingDown = true) (k : Key) : q.add k = q := by simp [add, hq]

theorem addAfter_of_shuttingDown (hq : q.shuttingDown = true) (k : Key) (delay : Float) :
    q.addAfter k delay = q := by
  unfold addAfter
  split
  · exact add_of_shuttingDown hq k
  · rfl

theorem fire_of_shuttingDown (hq : q.shuttingDown = true) (t : Timer) :
    q.fire t = { q with timers := q.timers.erase t } :=
  add_of_shuttingDown (q := { q with timers := q.timers.erase t }) hq t.key

/-- Of a failure only the count remains. -/
theorem addRateLimited_of_shuttingDown (hq : q.shuttingDown = true) (k : Key) :
    (q.addRateLimited k).2 = (q.fail k).2 := by
  have hfail : (q.fail k).2.shuttingDown = true := hq
  unfold addRateLimited
  split
  · rename_i h
    rw [h] at hfail ⊢
    exact addAfter_of_shuttingDown hfail k _
  · rename_i h
    rw [h]

/-- A queue that is shut down stays so, and timers that end late leave nothing behind. -/
theorem Step.closed (h : Step s e t) (hs : s.queue.Closed) : t.queue.Closed := by
  cases h with
  | add k =>
    show (s.queue.add k).Closed
    rwa [add_of_shuttingDown hs.shuttingDown]
  | addAfter k delay =>
    show (s.queue.addAfter k delay).Closed
    rwa [addAfter_of_shuttingDown hs.shuttingDown]
  | expire t => exact ⟨hs.shuttingDown, by simp [Session.on, hs.timers]⟩
  | fire t =>
    show (s.queue.fire t).Closed
    rw [fire_of_shuttingDown hs.shuttingDown]
    exact ⟨hs.shuttingDown, by simp [hs.timers]⟩
  | fail k => exact ⟨hs.shuttingDown, hs.timers⟩
  | addRateLimited k =>
    show (s.queue.addRateLimited k).2.Closed
    rw [addRateLimited_of_shuttingDown hs.shuttingDown]
    exact ⟨hs.shuttingDown, hs.timers⟩
  | forget k => exact ⟨hs.shuttingDown, hs.timers⟩
  | get w hget =>
    unfold Queue.get at hget
    split at hget <;> cases hget <;> exact ⟨hs.shuttingDown, hs.timers⟩
  | done hheld =>
    rw [done_eq]
    exact ⟨hs.shuttingDown, hs.timers⟩
  | shutDown => exact closed_shutDown _

theorem Run.closed (h : Run s es t) (hs : s.queue.Closed) : t.queue.Closed := by
  induction h with
  | nil => exact hs
  | cons hstep _ ih => exact ih (hstep.closed hs)

/-! ## Dirty keys -/

theorem Step.distinct_dirty (h : Step s e t) (hs : Distinct s.queue.dirty) : Distinct t.queue.dirty := by
  cases h.effect with
  | still hstill _ => rwa [hstill.dirty]
  | @add _ _ q k hstill hadd _ =>
    rw [← hstill.dirty] at hs
    rw [hadd]
    rcases add_cases q k with ⟨hsame, -⟩ | ⟨-, hdirty, -, -⟩
    · rwa [hsame]
    · rw [hdirty]
      exact distinct_mark hs
  | get _ _ hdirty _ =>
    show Distinct (Queue.dirty _)
    rw [hdirty]
    exact distinct_unmark hs
  | done =>
    rw [done_eq]
    exact hs

theorem Run.distinct_dirty (h : Run s es t) (hs : Distinct s.queue.dirty) : Distinct t.queue.dirty := by
  induction h with
  | nil => exact hs
  | cons hstep _ ih => exact ih (hstep.distinct_dirty hs)

/-- How often a key is among marked ones. -/
theorem Distinct.countP_eq (h : Distinct ks) (k : Key) :
    ks.countP (· == k) = if ks.contains k then 1 else 0 := by
  induction h with
  | nil => rfl
  | @cons a ks hks _ ih =>
    rw [List.countP_cons, ih, List.contains_cons]
    by_cases hak : (a == k) = true
    · have hnot : ks.contains k = false := by
        rw [Bool.eq_false_iff]
        intro hc
        obtain ⟨b, hb, hkb⟩ := List.contains_iff_exists_mem_beq.1 hc
        exact Bool.eq_false_iff.1 (hks b hb) (BEq.trans hak hkb)
      simp [hak, BEq.symm hak, hnot]
    · simp [hak, BEq.comm (a := k)]

/-- A marked key counts once, under any condition that does not tell equal keys apart. -/
theorem countP_unmark (hp : ∀ a b, (a == b) = true → p a = p b)
    (h : ks.contains k = true) (hd : Distinct ks) :
    (if p k then 1 else 0) + (unmark k ks).countP p = ks.countP p := by
  induction hd with
  | nil => cases h
  | @cons a ks hks _ ih =>
    by_cases hak : (a == k) = true
    · have hrest : unmark k ks = ks := by
        refine List.filter_eq_self.2 fun b hb => ?_
        rw [← BEq.congr_right hak, BEq.comm, hks b hb]
        rfl
      have hall : unmark k (a :: ks) = unmark k ks := List.filter_cons_of_neg (by simp [hak])
      rw [hall, hrest, List.countP_cons, hp a k hak, Nat.add_comm]
    · have hks' : ks.contains k = true := by
        rw [List.contains_cons, BEq.comm, Bool.or_eq_true] at h
        exact h.resolve_left hak
      have hall : unmark k (a :: ks) = a :: unmark k ks := List.filter_cons_of_pos (by simp [hak])
      rw [hall, List.countP_cons, List.countP_cons, ← ih hks', Nat.add_assoc]

/-! ## Keys that are handed out -/

/-- The key that an event hands out. -/
def Event.handed? : Event → Option Key
  | .get _ answer => answer
  | _ => none

/-- The keys that events hand out, in order. -/
def handedOut (es : List Event) : List Key := es.filterMap Event.handed?

/-- An event leaves the dirty keys of a closed queue as they are, or hands out one of them. -/
theorem Step.dirty_closed (h : Step s e t) (hs : s.Safe) (hclosed : s.queue.Closed) :
    e.handed? = none ∧ t.queue.dirty = s.queue.dirty ∨
      ∃ k, e.handed? = some k ∧ s.queue.dirty.contains k = true ∧ t.queue.dirty = unmark k s.queue.dirty := by
  have hdown := hclosed.shuttingDown
  cases h with
  | get w hget =>
    unfold Queue.get at hget
    split at hget
    · cases hget
      exact .inl ⟨rfl, rfl⟩
    · rename_i k ks hwaiting
      cases hget
      have hk := hs.waiting k
      rw [hwaiting, List.contains_cons, BEq.rfl, Bool.true_or] at hk
      exact .inr ⟨k, rfl, (Bool.and_eq_true_iff.1 hk.symm).1, rfl⟩
  | add k => exact .inl ⟨rfl, congrArg dirty (add_of_shuttingDown hdown k)⟩
  | addAfter k delay => exact .inl ⟨rfl, congrArg dirty (addAfter_of_shuttingDown hdown k delay)⟩
  | fire t => exact .inl ⟨rfl, (congrArg dirty (fire_of_shuttingDown hdown t)).trans rfl⟩
  | addRateLimited k =>
    exact .inl ⟨rfl, (congrArg dirty (addRateLimited_of_shuttingDown hdown k)).trans
      (fail_still s.queue k).dirty⟩
  | done hheld =>
    rw [done_eq]
    exact .inl ⟨rfl, rfl⟩
  | _ => exact .inl ⟨rfl, rfl⟩

/-- What was handed out and what is still dirty are together what was dirty. -/
theorem Run.countP_closed (hp : ∀ a b, (a == b) = true → p a = p b) (h : Run s es t) (hs : s.Safe)
    (hclosed : s.queue.Closed) (hd : Distinct s.queue.dirty) :
    (handedOut es).countP p + t.queue.dirty.countP p = s.queue.dirty.countP p := by
  induction h with
  | nil => exact Nat.zero_add _
  | @cons s t u e es hstep _ ih =>
    have ih := ih (hstep.safe hs) (hstep.closed hclosed) (hstep.distinct_dirty hd)
    rcases hstep.dirty_closed hs hclosed with ⟨hnone, hdirty⟩ | ⟨k', hsome, hk', hdirty⟩
    · rw [hdirty] at ih
      rw [handedOut, List.filterMap_cons_none hnone]
      exact ih
    · rw [hdirty] at ih
      rw [handedOut, List.filterMap_cons_some hsome, List.countP_cons, ← countP_unmark hp hk' hd, ← ih]
      show (handedOut es).countP p + _ + _ = _
      omega

theorem Run.count_closed (h : Run s es t) (hs : s.Safe) (hclosed : s.queue.Closed)
    (hd : Distinct s.queue.dirty) (k : Key) :
    (handedOut es).countP (· == k) + t.queue.dirty.countP (· == k) = s.queue.dirty.countP (· == k) :=
  h.countP_closed (fun _ _ hab => BEq.congr_left hab) hs hclosed hd

theorem Run.length_closed (h : Run s es t) (hs : s.Safe) (hclosed : s.queue.Closed)
    (hd : Distinct s.queue.dirty) :
    (handedOut es).length + t.queue.dirty.length = s.queue.dirty.length := by
  simpa using h.countP_closed (p := fun _ => true) (fun _ _ _ => rfl) hs hclosed hd

/-- No key becomes dirty in a closed queue. -/
theorem Run.dirty_of_closed (h : Run s es t) (hs : s.Safe) (hclosed : s.queue.Closed)
    (hd : Distinct s.queue.dirty) (hk : t.queue.dirty.contains k = true) :
    s.queue.dirty.contains k = true := by
  have hcount := h.count_closed hs hclosed hd k
  rw [Distinct.countP_eq (h.distinct_dirty hd), if_pos hk, hd.countP_eq] at hcount
  by_contra hnot
  rw [if_neg hnot] at hcount
  omega

/-! ## Every run after the shutdown -/

/-- A session that was shut down, with what happened since and what that led to, comes to an end. -/
structure Drained (s : Session) (es : List Event) (t : Session) : Prop where
  /-- No key becomes dirty any more: what is dirty was so at any time since. -/
  dirty (before after : List Event) (u : Session) (k : Key) : es = before ++ after →
    Run s (.shutDown :: before) u →
    Run u after t → t.queue.dirty.contains k = true → u.queue.dirty.contains k = true
  /-- No timer is pending. -/
  timers : t.queue.timers = []
  /-- A key that was dirty is handed out once or is still dirty, and no other key is handed out. -/
  once (k : Key) : (handedOut es).countP (· == k) + t.queue.dirty.countP (· == k) =
    if s.queue.dirty.contains k then 1 else 0
  /-- There are as many keys handed out as there are fewer dirty ones. -/
  length : (handedOut es).length + t.queue.dirty.length = s.queue.dirty.length
  /-- If nothing is waiting and nothing is processed, nothing is dirty, and no key is
  handed out ever after. -/
  idle : t.queue.waiting = [] → t.queue.processing = [] →
    t.queue.dirty = [] ∧ ∀ (es' : List Event) (u : Session), Run t es' u → handedOut es' = []

theorem run_drained {baseDelay maxDelay : Float} (h : Run (.start baseDelay maxDelay) es s)
    (h' : Run s (.shutDown :: es') t) :
    Drained s es' t := by
  have hsafe := h.safe (.start baseDelay maxDelay)
  have hdistinct : Distinct s.queue.dirty := h.distinct_dirty .nil
  obtain ⟨_, ⟨⟩, hrest⟩ := h'.head
  have hdown : (s.on (·.shutDown)).Safe := hsafe.still ⟨rfl, rfl, rfl⟩ rfl
  have hclosed : (s.on (·.shutDown)).queue.Closed := closed_shutDown s.queue
  have hend := hrest.closed hclosed
  refine ⟨?_, hend.timers, fun k => ?_, hrest.length_closed hdown hclosed hdistinct,
    fun hwaiting hprocessing => ?_⟩
  · rintro before after u k - hbefore hafter hk
    obtain ⟨_, ⟨⟩, hbefore⟩ := hbefore.head
    exact hafter.dirty_of_closed (hbefore.safe hdown) (hbefore.closed hclosed)
      (hbefore.distinct_dirty hdistinct) hk
  · exact (hrest.count_closed hdown hclosed hdistinct k).trans (hdistinct.countP_eq k)
  · have hnone := (hrest.safe hdown).idle hwaiting hprocessing
    refine ⟨hnone, fun es'' u hmore => List.eq_nil_iff_length_eq_zero.2 ?_⟩
    have hlength := hmore.length_closed (hrest.safe hdown) hend (hrest.distinct_dirty hdistinct)
    rw [hnone, List.length_nil] at hlength
    omega

/-- A worker has a key that was added again since. -/
def busy : Session where
  queue := { baseDelay := 1, maxDelay := 300, dirty := [.text "a/web"], processing := [.text "a/web"] }
  held := [(1, .text "a/web")]

/-- The key is handed out after the shutdown, once; an add and a timer that come too late change nothing. -/
theorem busy_drained : ∃ t,
    Run (.start 1 300) [.add (.text "a/web"), .get 1 (some (.text "a/web")), .add (.text "a/web")] busy ∧
    Run busy [.shutDown, .fire ⟨.text "a/api", 5⟩, .add (.text "a/api"), .done 1 (.text "a/web"),
      .get 2 (some (.text "a/web")), .fail (.text "a/web"), .done 2 (.text "a/web"), .get 1 none] t ∧
    Drained busy [.fire ⟨.text "a/api", 5⟩, .add (.text "a/api"), .done 1 (.text "a/web"),
      .get 2 (some (.text "a/web")), .fail (.text "a/web"), .done 2 (.text "a/web"), .get 1 none] t := by
  have run : Run (.start 1 300) [.add (.text "a/web"), .get 1 (some (.text "a/web")),
      .add (.text "a/web")] busy :=
    .cons (.add _ _) <| .cons (.get _ 1 rfl) <| .cons (.add _ _) (.nil busy)
  have rest := Run.cons (.shutDown busy) <| .cons (.fire _ ⟨.text "a/api", 5⟩) <|
    .cons (.add _ (.text "a/api")) <|
    .cons (.done _ (w := 1) (k := .text "a/web") List.mem_cons_self) <| .cons (.get _ 2 rfl) <|
    .cons (.fail _ (.text "a/web")) <| .cons (.done _ (w := 2) (k := .text "a/web") List.mem_cons_self) <|
    .cons (.get _ 1 rfl) (.nil _)
  exact ⟨_, run, rest, run_drained run rest⟩

end Balancer.Queue
