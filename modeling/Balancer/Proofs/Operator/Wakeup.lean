import Balancer.Proofs.Operator.Concern
import Balancer.Proofs.Queue.Run

/-!
# Handlers and workers side by side

Any number of handlers and workers share an operator. A handler changes the store, then finds its keys in
whatever the store is by then, and then queues them one by one; anything may happen in between.

* `Scene`, `Scene.Step`, `Scene.Run` : an operator, what its workers have, and what its
  handlers have still to do;
* `Sound` : what holds in a scene all along (`Sound.step`);
* `Woken ordered i k s` : a key is dirty, or a handler will see to it, or a sync of the key reads what it read
  from `i`. Every step but one that hands the key out keeps this up (`Woken.step`);
* `run_woken` : so if all handlers are through, a key is dirty, or a sync of it does what it would have done
  when it was handed out last;
* `run_handle` : a handler that is not interrupted does what `observe` and `observeConfigMap` do.
-/

namespace Balancer.Operator

set_option autoImplicit false

open Cluster Value Routing Converge

/-! ## Scenes -/

/-- What a handler has still to do after it changed the store: to find its keys, or to
queue those that are left. -/
inductive Pending where
  | finding (e : Change) (old : Option Value)
  | queueing (keys : List Value)

/-- The next thing that a handler does, and what it has to do after that. An error ends it. -/
def Pending.advance (o : Operator) : Pending → Option Pending × Operator
  | .finding e old =>
    match o.keysOf old e with
    | .ok keys => (some (.queueing keys), o)
    | .error _ => (none, o)
  | .queueing [] => (none, o)
  | .queueing (v :: vs) =>
    match v.key with
    | .ok k => (some (.queueing vs), { o with queue := o.queue.add k })
    | .error _ => (none, o)

/-- An operator, the keys that its workers have, and what its handlers have still to do. -/
structure Scene where
  operator : Operator
  held : List (Nat × Key) := []
  pending : List Pending := []

/-- One thing that happens: the first half of a handler, the next thing that a handler under way does, or
anything that workers and timers do to the queue. A sync changes neither the store nor the queue. -/
inductive Act where
  | write (e : Change)
  | advance
  | queue (e : Queue.Event)

inductive Scene.Step : Scene → Act → Scene → Prop
  | write (s : Scene) {e : Change} {old : Option Value} {o : Operator}
    (h : s.operator.write e = .ok (old, o)) :
    Step s (.write e) { s with operator := o, pending := .finding e old :: s.pending }
  | advance (s : Scene) {p : Pending} {rest : List Pending} (h : s.pending.Perm (p :: rest)) :
    Step s .advance
      { s with operator := (p.advance s.operator).2, pending := (p.advance s.operator).1.toList ++ rest }
  | queue (s : Scene) {e : Queue.Event} {t : Queue.Session} (h : Queue.Step ⟨s.operator.queue, s.held⟩ e t) :
    Step s (.queue e) { s with operator := { s.operator with queue := t.queue }, held := t.held }

inductive Scene.Run : Scene → List Act → Scene → Prop
  | nil (s : Scene) : Run s [] s
  | cons {s t u : Scene} {a : Act} {acts : List Act} (h : Step s a t)
    (hs : Run t acts u) : Run s (a :: acts) u

/-- An event on a well-formed object, or anything but a shutdown. -/
def Act.IsWellFormed (ordered : Prop) : Act → Prop
  | .write e => e.IsWellFormed ordered
  | .advance => True
  | .queue e => e ≠ .shutDown

/-- A key is handed out to a worker. -/
def Act.HandsOut (k : Key) (a : Act) : Prop := ∃ w k', a = .queue (.get w (some k')) ∧ (k' == k) = true

section

variable {ordered : Prop} {o o' o'' : Operator} {r s t : Scene} {a : Act} {acts acts' : List Act} {e : Change}
    {old : Option Value} {k : String}

theorem Scene.Step.advance_head {held : List (Nat × Key)} {p : Pending} {rest : List Pending} :
    Scene.Step ⟨o, held, p :: rest⟩ .advance ⟨(p.advance o).2, held, (p.advance o).1.toList ++ rest⟩ :=
  .advance _ (.refl _)

/-! ## What a scene keeps -/

theorem sameBase_queue (o : Operator) (queue : Queue) : SameBase o { o with queue } := ⟨⟨_, rfl⟩, rfl⟩

theorem queue_write (h : o.write e = .ok (old, o')) : o'.queue = o.queue := by
  cases e with
  | configMap type obj =>
    cases h
    rfl
  | object kind type obj =>
    obtain ⟨⟨_, _⟩, -, h⟩ := bind_eq_ok_iff.1 h
    cases h
    rfl

theorem Finds.of_base (h : Finds ordered o old e) (hbase : SameBase o o') :
    Finds ordered o' old e := fun o'' hbase' =>
  h o'' (hbase.trans hbase')

theorem Announces.of_base (h : Announces o old e k) (hbase : SameBase o o') :
    Announces o' old e k := fun o'' hbase' =>
  h o'' (hbase.trans hbase')

theorem Concerns.of_base (h : Concerns ordered o old e k) (hbase : SameBase o o') :
    Concerns ordered o' old e k :=
  fun o'' hbase' => h o'' (hbase.trans hbase')

/-- What holds in a scene all along: the store is well-formed, the queue is open, and no handler will fail. -/
structure Sound (ordered : Prop) (r : Operator) (s : Scene) : Prop where
  base : SameBase r s.operator
  wellFormed : s.operator.store.WellFormed ordered
  isOpen : s.operator.queue.shuttingDown = false
  finds {e : Change} {old : Option Value} : .finding e old ∈ s.pending → Finds ordered s.operator old e
  texts {keys : List Value} : .queueing keys ∈ s.pending → ∀ v ∈ keys, ∃ k : String, v = .text k

theorem Sound.write (hs : Sound ordered o s) (he : e.IsWellFormed ordered)
    (h : s.operator.write e = .ok (old, o')) :
    Sound ordered o { s with operator := o', pending := .finding e old :: s.pending } := by
  obtain ⟨old', o'', hwrite, heffect⟩ := write_effect hs.wellFormed he ""
  rw [h] at hwrite
  cases hwrite
  refine ⟨hs.base.trans heffect.base, heffect.wellFormed, (congrArg _ (queue_write h)).trans hs.isOpen,
    fun {e' old''} hmem => ?_, fun {keys} hmem => ?_⟩
  · rcases List.mem_cons.1 hmem with heq | hmem
    · cases heq
      exact heffect.finds.of_base heffect.base
    · exact (hs.finds hmem).of_base heffect.base
  · rcases List.mem_cons.1 hmem with heq | hmem
    · cases heq
    · exact hs.texts hmem

theorem advance_finding {keys : List Value} (h : o.keysOf old e = .ok keys) :
    Pending.advance o (.finding e old) = (some (.queueing keys), o) := by
  unfold Pending.advance
  dsimp only
  rw [h]

theorem Sound.advance {p : Pending} {rest : List Pending} (hs : Sound ordered o s)
    (h : s.pending.Perm (p :: rest)) :
    Sound ordered o { s with
      operator := (p.advance s.operator).2,
      pending := (p.advance s.operator).1.toList ++ rest } := by
  have hrest : ∀ {q}, q ∈ rest → q ∈ s.pending := fun hq => h.mem_iff.2 (List.mem_cons_of_mem _ hq)
  have hp : p ∈ s.pending := h.mem_iff.2 List.mem_cons_self
  cases p with
  | finding e old =>
    obtain ⟨keys, hkeys, htexts⟩ := hs.finds hp s.operator (.refl _) hs.wellFormed
    rw [advance_finding hkeys]
    refine ⟨hs.base, hs.wellFormed, hs.isOpen, fun hmem => ?_, fun hmem => ?_⟩
    · rcases List.mem_cons.1 hmem with heq | hmem
      · cases heq
      · exact hs.finds (hrest hmem)
    · rcases List.mem_cons.1 hmem with heq | hmem
      · cases heq
        exact htexts
      · exact hs.texts (hrest hmem)
  | queueing keys =>
    cases keys with
    | nil => exact ⟨hs.base, hs.wellFormed, hs.isOpen, fun hmem => hs.finds (hrest hmem),
      fun hmem => hs.texts (hrest hmem)⟩
    | cons v vs =>
      obtain ⟨⟨k, rfl⟩, htexts⟩ := List.forall_mem_cons.1 (hs.texts hp)
      refine ⟨hs.base.trans (sameBase_queue _ _), hs.wellFormed,
        (Queue.add_shuttingDown _ _).trans hs.isOpen, fun hmem => ?_, fun hmem => ?_⟩
      · rcases List.mem_cons.1 hmem with heq | hmem
        · cases heq
        · exact (hs.finds (hrest hmem)).of_base (sameBase_queue _ _)
      · rcases List.mem_cons.1 hmem with heq | hmem
        · cases heq
          exact htexts
        · exact hs.texts (hrest hmem)

theorem Sound.step (hs : Sound ordered o s) (ha : a.IsWellFormed ordered) (h : Scene.Step s a t) :
    Sound ordered o t := by
  cases h with
  | write h => exact hs.write ha h
  | advance h => exact hs.advance h
  | queue h =>
    exact ⟨hs.base.trans (sameBase_queue _ _), hs.wellFormed, (h.shuttingDown ha).trans hs.isOpen,
      fun hmem => (hs.finds hmem).of_base (sameBase_queue _ _), hs.texts⟩

theorem Sound.run (hs : Sound ordered o s) (hacts : ∀ a ∈ acts, a.IsWellFormed ordered)
    (h : Scene.Run s acts t) :
    Sound ordered o t := by
  induction h with
  | nil => exact hs
  | cons hstep _ ih =>
    obtain ⟨ha, hacts⟩ := List.forall_mem_cons.1 hacts
    exact ih (hs.step ha hstep) hacts

/-! ## Keys that are seen to -/

/-- A key is dirty, or a handler will queue it, or a sync of it reads what was to be read at another time,
where a handler that is still to find its keys will not find this one. -/
inductive Woken (ordered : Prop) (i : Inputs) (k : String) (s : Scene) : Prop
  | dirty (h : s.operator.queue.dirty.contains (.text k) = true)
  | queueing {keys : List Value} (h : .queueing keys ∈ s.pending) (hk : .text k ∈ keys)
  | announced {e : Change} {old : Option Value} (h : .finding e old ∈ s.pending)
    (hk : Announces s.operator old e k)
  | same (service : Option.Rel (SameService ordered) (i.classed k) (s.operator.inputs.classed k))
    (aspects : (s.operator.inputs.classed k).isSome → ∀ a : Aspect, a.Same i s.operator.inputs k ∨
      ∃ e old, .finding e old ∈ s.pending ∧ Concerns ordered s.operator old e k)

variable {i : Inputs}

theorem Woken.refl (hs : s.operator.store.WellFormed ordered) (k : String) :
    Woken ordered s.operator.inputs k s := by
  refine .same (rel_classed hs rfl) fun _ a => .inl ?_
  cases a with
  | endpoints => exact rel_endpoints hs rfl
  | nodes => rfl
  | config => rfl

theorem Woken.write (hk : Woken ordered i k s) (hs : Sound ordered o s) (he : e.IsWellFormed ordered)
    (h : s.operator.write e = .ok (old, o')) :
    Woken ordered i k { s with operator := o', pending := .finding e old :: s.pending } := by
  obtain ⟨old', o'', hwrite, heffect⟩ := write_effect hs.wellFormed he k
  rw [h] at hwrite
  cases hwrite
  cases hk with
  | dirty hk => exact .dirty ((congrArg (·.dirty.contains (.text k)) (queue_write h)).trans hk)
  | queueing hmem hk => exact .queueing (List.mem_cons_of_mem _ hmem) hk
  | announced hmem hk => exact .announced (List.mem_cons_of_mem _ hmem) (hk.of_base heffect.base)
  | same hservice haspects =>
    rcases heffect.service with hannounces | hservice'
    · exact .announced List.mem_cons_self (hannounces.of_base heffect.base)
    refine .same (optionRel_trans (R := SameService ordered)
      (fun _ _ _ => SameService.trans) hservice hservice')
      fun hclassed a => ?_
    rcases haspects (isSome_of_rel hservice' hclassed) a with hsame | ⟨e', old', hmem, hconcerns⟩
    · rcases heffect.aspects a with hsame' | hconcerns
      · exact .inl (hsame.trans hsame')
      · exact .inr ⟨e, old, List.mem_cons_self, hconcerns.of_base heffect.base⟩
    · exact .inr ⟨e', old', List.mem_cons_of_mem _ hmem, hconcerns.of_base heffect.base⟩

/-- A key is woken as long as handlers that would see to it go on to do so. -/
theorem Woken.keep (hk : Woken ordered i k s)
    (ht : t.operator = { s.operator with queue := t.operator.queue })
    (hdirty : s.operator.queue.dirty.contains (.text k) = true → Woken ordered i k t)
    (hqueueing : ∀ keys, .queueing keys ∈ s.pending → .text k ∈ keys → Woken ordered i k t)
    (hfinding : ∀ e old, .finding e old ∈ s.pending → .finding e old ∈ t.pending ∨
      ¬ Announces s.operator old e k ∧ ((s.operator.inputs.classed k).isSome →
        ¬ Concerns ordered s.operator old e k)) :
    Woken ordered i k t := by
  have hbase : SameBase s.operator t.operator := ht ▸ sameBase_queue _ _
  have hinputs : t.operator.inputs = s.operator.inputs := by rw [ht]; rfl
  cases hk with
  | dirty hk => exact hdirty hk
  | queueing hmem hk => exact hqueueing _ hmem hk
  | announced hmem hk =>
    exact .announced ((hfinding _ _ hmem).resolve_right fun h => h.1 hk) (hk.of_base hbase)
  | same hservice haspects =>
    refine .same (hinputs ▸ hservice) fun hclassed a => ?_
    rw [hinputs] at hclassed
    rcases haspects hclassed a with hsame | ⟨e, old, hmem, hconcerns⟩
    · exact .inl (hinputs ▸ hsame)
    · exact .inr ⟨e, old, (hfinding _ _ hmem).resolve_right fun h => h.2 hclassed hconcerns,
        hconcerns.of_base hbase⟩

/-- A handler finds its keys. If this one is not among them, then the handler neither announced it, nor is
it concerned with it. -/
theorem Woken.find {keys : List Value} {rest : List Pending} (hk : Woken ordered i k s)
    (hs : s.operator.store.WellFormed ordered) (h : s.pending.Perm (.finding e old :: rest))
    (hkeys : s.operator.keysOf old e = .ok keys) :
    Woken ordered i k { s with pending := .queueing keys :: rest } := by
  have hrest : ∀ {q}, q ∈ s.pending → q = .finding e old ∨ q ∈ rest :=
    fun hq => List.mem_cons.1 (h.mem_iff.1 hq)
  by_cases hin : .text k ∈ keys
  · exact .queueing List.mem_cons_self hin
  have hfound : ¬ ∃ keys', s.operator.keysOf old e = .ok keys' ∧ .text k ∈ keys' := by
    rintro ⟨keys', hkeys', hmem⟩
    rw [hkeys] at hkeys'
    cases hkeys'
    exact hin hmem
  refine hk.keep rfl (fun hdirty => .dirty hdirty) (fun keys hmem hkey =>
    .queueing (List.mem_cons_of_mem _ ((hrest hmem).resolve_left nofun)) hkey) fun e' old' hmem => ?_
  rcases hrest hmem with heq | hmem
  · cases heq
    exact .inr ⟨fun hannounces => hfound (hannounces s.operator (.refl _)), fun hclassed hconcerns =>
      hfound (hconcerns s.operator (.refl _) hs hclassed)⟩
  · exact .inl (List.mem_cons_of_mem _ hmem)

/-- A handler queues a key: this one, which is dirty then, or another one. -/
theorem Woken.add {key : String} {vs : List Value} {rest : List Pending} (hk : Woken ordered i k s)
    (hopen : s.operator.queue.shuttingDown = false)
    (h : s.pending.Perm (.queueing (.text key :: vs) :: rest)) :
    Woken ordered i k { s with
      operator := { s.operator with queue := s.operator.queue.add (.text key) },
      pending := .queueing vs :: rest } := by
  have hrest : ∀ {q}, q ∈ s.pending → q = .queueing (.text key :: vs) ∨ q ∈ rest :=
    fun hq => List.mem_cons.1 (h.mem_iff.1 hq)
  refine hk.keep rfl (fun hdirty => ?_) (fun keys hmem hkey => ?_) fun e old hmem =>
    .inl (List.mem_cons_of_mem _ ((hrest hmem).resolve_left nofun))
  · refine .dirty
      (((Queue.Step.add ⟨s.operator.queue, s.held⟩ (.text key)).dirty_or_got hdirty).resolve_right ?_)
    rintro ⟨_, _, heq, -⟩
    cases heq
  · rcases hrest hmem with heq | hmem
    · cases heq
      rcases List.mem_cons.1 hkey with heq | hkey
      · cases heq
        exact .dirty (Queue.dirty_add hopen)
      · exact .queueing List.mem_cons_self hkey
    · exact .queueing (List.mem_cons_of_mem _ hmem) hkey

/-- A handler that has queued all of its keys is through. -/
theorem Woken.through {rest : List Pending} (hk : Woken ordered i k s)
    (h : s.pending.Perm (.queueing [] :: rest)) :
    Woken ordered i k { s with pending := rest } := by
  have hrest : ∀ {q}, q ∈ s.pending → q = .queueing [] ∨ q ∈ rest :=
    fun hq => List.mem_cons.1 (h.mem_iff.1 hq)
  refine hk.keep rfl (fun hdirty => .dirty hdirty) (fun keys hmem hkey => ?_) fun e old hmem =>
    .inl ((hrest hmem).resolve_left nofun)
  rcases hrest hmem with heq | hmem
  · cases heq
    cases hkey
  · exact .queueing hmem hkey

theorem Woken.advance {p : Pending} {rest : List Pending} (hk : Woken ordered i k s) (hs : Sound ordered o s)
    (h : s.pending.Perm (p :: rest)) :
    Woken ordered i k { s with
      operator := (p.advance s.operator).2,
      pending := (p.advance s.operator).1.toList ++ rest } := by
  have hp : p ∈ s.pending := h.mem_iff.2 List.mem_cons_self
  cases p with
  | finding e old =>
    obtain ⟨keys, hkeys, -⟩ := hs.finds hp s.operator (.refl _) hs.wellFormed
    rw [advance_finding hkeys]
    exact hk.find hs.wellFormed h hkeys
  | queueing keys =>
    cases keys with
    | nil => exact hk.through h
    | cons v vs =>
      obtain ⟨⟨key, rfl⟩, -⟩ := List.forall_mem_cons.1 (hs.texts hp)
      exact hk.add hs.isOpen h

theorem Woken.queue {e : Queue.Event} {q : Queue.Session} (hk : Woken ordered i k s)
    (h : Queue.Step ⟨s.operator.queue, s.held⟩ e q)
    (hnot : ¬ (Act.queue e).HandsOut (.text k)) :
    Woken ordered i k { s with operator := { s.operator with queue := q.queue }, held := q.held } := by
  refine hk.keep rfl (fun hdirty => .dirty ((h.dirty_or_got hdirty).resolve_right ?_))
    (fun keys hmem hkey => .queueing hmem hkey) fun e old => .inl
  rintro ⟨w, k', rfl, hkk⟩
  exact hnot ⟨w, k', rfl, hkk⟩

theorem Woken.step (hk : Woken ordered i k s) (hs : Sound ordered o s) (ha : a.IsWellFormed ordered)
    (hnot : ¬ a.HandsOut (.text k))
    (h : Scene.Step s a t) : Woken ordered i k t := by
  cases h with
  | write h => exact hk.write hs ha h
  | advance h => exact hk.advance hs h
  | queue h => exact hk.queue h hnot

theorem Woken.run (hk : Woken ordered i k s) (hs : Sound ordered o s)
    (hacts : ∀ a ∈ acts, a.IsWellFormed ordered ∧ ¬ a.HandsOut (.text k))
    (h : Scene.Run s acts t) : Woken ordered i k t := by
  induction h with
  | nil => exact hk
  | cons hstep _ ih =>
    obtain ⟨⟨ha, hnot⟩, hacts⟩ := List.forall_mem_cons.1 hacts
    exact ih (hk.step hs ha hnot hstep) (hs.step ha hstep) hacts

/-- If all handlers are through, a key that is not dirty is read as it was. -/
theorem Woken.sameReads (hk : Woken ordered r.operator.inputs k t) (hbase : SameBase r.operator t.operator)
    (ht : t.pending = []) :
    t.operator.queue.dirty.contains (.text k) = true ∨
      SameReads ordered r.operator.inputs t.operator.inputs k := by
  cases hk with
  | dirty hk => exact .inl hk
  | queueing hmem => simp [ht] at hmem
  | announced hmem => simp [ht] at hmem
  | same hservice haspects =>
    refine .inr ⟨hbase.inputs.1, hbase.inputs.2, hservice,
      fun hclassed a => (haspects hclassed a).resolve_right ?_⟩
    rintro ⟨e, old, hmem, -⟩
    simp [ht] at hmem

/-! ## No wakeup is lost -/

/-- What holds of a scene in which the handlers have not begun. -/
theorem Sound.start (hs : s.operator.store.WellFormed ordered) (hopen : s.operator.queue.shuttingDown = false)
    (hpending : s.pending = []) :
    Sound ordered s.operator s where
  base := .refl _
  wellFormed := hs
  isOpen := hopen
  finds hmem := by simp [hpending] at hmem
  texts hmem := by simp [hpending] at hmem

theorem Sound.rebase (hs : Sound ordered o s) : Sound ordered s.operator s :=
  ⟨.refl _, hs.wellFormed, hs.isOpen, hs.finds, hs.texts⟩

/-- Whatever handlers and workers do, in any order: if all handlers are through, then a key is dirty, or a
sync of it asks the same of any cloud and ends alike as at any time since which the key was not handed out, be
it right after it was handed out last or the very beginning. -/
theorem run_woken (hs : s.operator.store.WellFormed ordered) (hopen : s.operator.queue.shuttingDown = false)
    (hpending : s.pending = [])
    (hr : Scene.Run s acts r) (ht : Scene.Run r acts' t)
    (hacts : ∀ a ∈ acts ++ acts', a.IsWellFormed ordered) {key : Key} (hkey : ∀ a ∈ acts', ¬ a.HandsOut key)
    (hthrough : t.pending = []) :
    t.operator.queue.dirty.contains key = true ∨ ∀ {σ : Type} (c : Cloud σ), c.IsDeaf → ∀ m,
      ((sync r.operator.inputs key.toValue).run c m).2 = ((sync t.operator.inputs key.toValue).run c m).2 ∧
        SameEnd ordered ((sync r.operator.inputs key.toValue).run c m).1
          ((sync t.operator.inputs key.toValue).run c m).1 := by
  obtain ⟨hacts, hacts'⟩ := List.forall_mem_append.1 hacts
  have hsound : Sound ordered r.operator r := ((Sound.start hs hopen hpending).run hacts hr).rebase
  have hsound' : Sound ordered r.operator t := hsound.run hacts' ht
  by_cases htext : ∃ k, key = .text k
  · obtain ⟨k, rfl⟩ := htext
    have hwoken : Woken ordered r.operator.inputs k t :=
      (Woken.refl hsound.wellFormed k).run hsound (fun a ha => ⟨hacts' a ha, hkey a ha⟩) ht
    exact (hwoken.sameReads hsound'.base hthrough).imp_right fun hreads σ c hc m =>
      (hreads.agree hsound.wellFormed hsound'.wellFormed).run hc m
  · refine .inr fun c hc m => Program.Agree.run
      (agree_of_ne_text hsound.wellFormed hsound'.wellFormed hsound'.base.inputs.1
      fun k hk => ?_) hc m
    exact htext ⟨k, Key.toValue_inj hk⟩

/-- A scene with the Service `default/web`. -/
def webScene (status : Fields) (queue : Queue) (held : List (Nat × Key)) (pending : List Pending) : Scene :=
  ⟨{ knowingWeb with store := { services := .ofList [(.text "default/web", webService status)] }, queue },
    held, pending⟩

/-- A worker gets the key of a Service, and meanwhile a host name is published in the status of the Service.
No handler finds the key, and a sync asks the same of a cloud that is new as when the worker got it. -/
theorem published_during_sync : ∃ acts acts' r t,
    Scene.Run (webScene [] {} [] []) acts r ∧ .queue (.get 1 (some (.text "default/web"))) ∈ acts ∧
    Scene.Run r acts' t ∧
    .write (.object .service .modified (webService publishedStatus)) ∈ acts' ∧
    .queue (.done 1 (.text "default/web")) ∈ acts' ∧
      t.pending = [] ∧
    ∀ m, ((sync r.operator.inputs (.text "default/web")).run (Memory.cloud Gate.free) ((), m)).2 =
      ((sync t.operator.inputs (.text "default/web")).run (Memory.cloud Gate.free) ((), m)).2 := by
  let k : Key := .text "default/web"
  let published : Change := .object .service .modified (webService publishedStatus)
  let has : Queue := { processing := [k] }
  have hadd : Scene.Step (webScene [] {} [] []) (.queue (.add k))
      (webScene [] { waiting := [k], dirty := [k] } [] []) :=
    .queue _ (.add _ k)
  have hget : Scene.Step (webScene [] { waiting := [k], dirty := [k] } [] []) (.queue (.get 1 (some k)))
    (webScene [] has [(1, k)] []) :=
    .queue _ (.get _ 1 rfl)
  have hwrite : Scene.Step (webScene [] has [(1, k)] []) (.write published)
      (webScene publishedStatus has [(1, k)] [.finding published (some (webService []))]) := .write _ rfl
  have hdone : Scene.Step (webScene publishedStatus has [(1, k)] [.finding published (some (webService []))])
      (.queue (.done 1 k))
      (webScene publishedStatus {} [] [.finding published (some (webService []))]) :=
        .queue _ (.done _ List.mem_cons_self)
  have hfind : Scene.Step (webScene publishedStatus {} []
      [.finding published (some (webService []))]) .advance
      (webScene publishedStatus {} [] [.queueing []]) := .advance_head
  have hend : Scene.Step (webScene publishedStatus {} [] [.queueing []]) .advance
      (webScene publishedStatus {} [] []) :=
    .advance_head
  have hr : Scene.Run _ [.queue (.add k), .queue (.get 1 (some k))] _ := .cons hadd (.cons hget (.nil _))
  have ht : Scene.Run _ [.write published, .queue (.done 1 k), .advance, .advance] _ :=
    .cons hwrite (.cons hdone (.cons hfind (.cons hend (.nil _))))
  refine ⟨_, _, _, _, hr, by simp [k], ht, by simp [published], by simp [k], rfl, fun m => ?_⟩
  have hacts : ∀ a ∈ [.queue (.add k), .queue (.get 1 (some k))] ++
      [.write published, .queue (.done 1 k), .advance, .advance],
      Act.IsWellFormed True a := by
    have hpublished : published.IsWellFormed True := isService_webService ⟨_, rfl⟩
    simp [Act.IsWellFormed, hpublished]
  have hkept : ∀ a ∈ [.write published, .queue (.done 1 k), .advance, .advance], ¬ Act.HandsOut k a := by
    simp [Act.HandsOut]
  have hwoken := run_woken wellFormed_knowingWeb rfl rfl hr ht hacts hkept rfl
  exact (hwoken.resolve_left nofun (Memory.cloud Gate.free) (fun _ _ => rfl) ((), m)).1

/-! ## Handlers that are not interrupted -/

/-- A handler, from beginning to end. -/
def handle (o : Operator) : Change → Except Error Unit × Operator
  | .object kind type obj => o.observe kind type obj
  | .configMap type obj => o.observeConfigMap type obj

theorem handle_eq (o : Operator) (e : Change) : o.handle e =
    match o.write e with
    | .error err => (.error err, o)
    | .ok (old, o') => o'.enqueue (o'.keysOf old e) := by
  cases e with
  | object kind type obj => exact observe_eq o kind type obj
  | configMap type obj => exact observeConfigMap_eq o type obj

/-- Keys that are queued one by one, with nothing in between. -/
theorem run_queueing (held : List (Nat × Key)) (rest : List Pending) {keys : List Value}
    (hkeys : ∀ v ∈ keys, ∃ k : String, v = .text k)
    (o : Operator) (hopen : o.queue.shuttingDown = false) :
    ∃ acts, Scene.Run ⟨o, held, .queueing keys :: rest⟩ acts ⟨(o.enqueue (.ok keys)).2, held, rest⟩ ∧
      (o.enqueue (.ok keys)).1 = .ok () := by
  induction keys generalizing o with
  | nil => exact ⟨[.advance], .cons .advance_head (.nil _), rfl⟩
  | cons v vs ih =>
    obtain ⟨⟨k, rfl⟩, hvs⟩ := List.forall_mem_cons.1 hkeys
    obtain ⟨acts, hrun, hok⟩ :=
      ih hvs { o with queue := o.queue.add (.text k) } ((Queue.add_shuttingDown _ _).trans hopen)
    have hqueue : queueAll o.queue (.text k :: vs) = queueAll (o.queue.add (.text k)) vs := by
      rw [queueAll, if_neg (by simp [hopen])]
      rfl
    refine ⟨.advance :: acts, .cons .advance_head ?_, ?_⟩
    · show Scene.Run _ acts ⟨{ o with queue := (queueAll o.queue (.text k :: vs)).2 }, held, rest⟩
      rw [hqueue]
      exact hrun
    · show (queueAll o.queue (.text k :: vs)).1 = .ok ()
      rw [hqueue]
      exact hok

/-- A handler that nothing interrupts succeeds, and its steps lead to where it leads. -/
theorem run_handle (hs : s.operator.store.WellFormed ordered) (hopen : s.operator.queue.shuttingDown = false)
    (he : e.IsWellFormed ordered) :
    ∃ acts, Scene.Run s (.write e :: acts) { s with operator := (s.operator.handle e).2 } ∧
      (s.operator.handle e).1 = .ok () := by
  obtain ⟨old, o', hwrite, heffect⟩ := write_effect hs he ""
  obtain ⟨keys, hkeys, htexts⟩ := heffect.finds o' heffect.base heffect.wellFormed
  obtain ⟨acts, hrun, hok⟩ :=
    run_queueing s.held s.pending htexts o' ((congrArg _ (queue_write hwrite)).trans hopen)
  have hhandle : s.operator.handle e = o'.enqueue (.ok keys) := by
    rw [handle_eq, hwrite]
    show o'.enqueue (o'.keysOf old e) = _
    rw [hkeys]
  have hfound : Scene.Step { s with operator := o', pending := .finding e old :: s.pending } .advance
      ⟨o', s.held, .queueing keys :: s.pending⟩ := by
    have hstep : Scene.Step ⟨o', s.held, .finding e old :: s.pending⟩ .advance _ := .advance_head
    rw [advance_finding hkeys] at hstep
    exact hstep
  rw [hhandle]
  exact ⟨.advance :: acts, .cons (.write s hwrite) (.cons hfound hrun), hok⟩

end

end Balancer.Operator
