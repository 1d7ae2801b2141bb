import Balancer.Proofs.Cloud.Recorded
import Balancer.Proofs.Converge.ServiceListeners
import Balancer.Proofs.Routing.Targets

/-!
# Merging listeners

What `convergeListeners` makes of the listeners that a load balancer has and those that a
Service declares, port by port.

* `Stands s a n arn l` : a listener stands on a port of a load balancer; `Orderly` : there is one on each
  port, under its own ARN;
* `Differs` : a listener has another protocol than the wanted one, or other actions as they are compared;
* `Settles` : how the listener of one declared port came to be, and what was recorded of it: it was
  created, modified under its ARN, or left alone. `Merges` : that of all declared ports in turn, `Sweeps` :
  the deletions of the rest;
* `Merged` : all of this, and the listeners that are returned are those that the load balancer has then.
  No other one was touched;
* `convergeListeners_run` : so it is after every run that is not cut off and ends well. A run that cannot
  build what is declared leaves all as it was.
-/

namespace Balancer

set_option autoImplicit false

namespace Converge

open Cluster Routing Resources

/-- The listener of an ARN stands on a port of a load balancer. -/
structure Stands (s : Resources) (a : String) (n : Int) (arn : String) (l : Fields) : Prop where
  there : s.listeners.get? (.text arn) = some l
  lb : Fields.get l "LoadBalancerArn" = .text a
  port : Fields.get l "Port" = .int n

/-- The listeners of a load balancer stand under their own ARNs on numbered ports, one on each, and no ARN
with a number that is still to be given out is that of a listener. -/
structure Orderly (a : String) (s : Resources) : Prop where
  own : ∀ {k l}, s.listeners.get? k = some l → Fields.get l "LoadBalancerArn" = .text a →
    ∃ arn n, k = .text arn ∧ Fields.get l "ListenerArn" = .text arn ∧ Fields.get l "Port" = .int n
  unique : ∀ {n arn arn' l l'}, Stands s a n arn l → Stands s a n arn' l' → arn = arn'
  fresh : ∀ {n arn}, s.nextId ≤ n → Numbered n arn → s.listeners.get? (.text arn) = none

/-- A listener has another protocol, or other actions as they are compared. -/
def Differs (l : Fields) (spec : ListenerSpec) (actions : List Fields) : Prop :=
  (Fields.get l "Protocol").same spec.protocol = false ∨
    ∃ current wanted, normalize (Fields.get l "DefaultActions") = .ok current ∧
      normalize (.list (actions.map .object)) = .ok wanted ∧ sameActions current wanted = false

/-- How the listener of a declared port came to be, and what was recorded of it. -/
inductive Settles (a : String) (spec : ListenerSpec) (actions : List Fields) (s t : Resources) :
    Value → List Record → Prop where
  | created (arn : String) (l : Fields) (free : ∀ arn l, ¬ Stands s a spec.port arn l)
      (unused : s.listeners.get? (.text arn) = none) (stands : Stands t a spec.port arn l)
        (written : Written spec actions l) :
      Settles a spec actions s t (.object l)
        [⟨"create_listener", listenerParams ("LoadBalancerArn", .text a) spec actions⟩]
  | modified (arn : String) (l l' : Fields) (stood : Stands s a spec.port arn l)
      (differs : Differs l spec actions)
      (stands : Stands t a spec.port arn l') (written : Written spec actions l') :
      Settles a spec actions s t (.object l')
        [⟨"modify_listener", listenerParams ("ListenerArn", .text arn) spec actions⟩]
  | kept (arn : String) (l : Fields) (stood : Stands s a spec.port arn l) (same : ¬ Differs l spec actions)
      (stands : Stands t a spec.port arn l) : Settles a spec actions s t (.object l) []

/-- The listeners of declared ports, in the order of declaration. -/
inductive Merges (a : String) (s t : Resources) :
    List (ListenerSpec × List Fields) → List Value → List Record → Prop where
  | nil : Merges a s t [] [] []
  | cons {d : ListenerSpec × List Fields} {ds : List (ListenerSpec × List Fields)}
      {v : Value} {vs : List Value}
      {log logs : List Record} (head : Settles a d.1 d.2 s t v log) (tail : Merges a s t ds vs logs) :
      Merges a s t (d :: ds) (v :: vs) (log ++ logs)

/-- The port is that of a declared listener. -/
def DeclaredPort (declared : List (ListenerSpec × List Fields)) (n : Int) : Prop :=
  ∃ d ∈ declared, d.1.port = n

/-- The listeners on ports that are not declared are deleted, in the order of their ports. -/
def Sweeps (a : String) (s : Resources) (declared : List (ListenerSpec × List Fields))
    (log : List Record) : Prop :=
  ∃ gone : List (Int × String),
    (∀ n arn, (n, arn) ∈ gone ↔ (∃ l, Stands s a n arn l) ∧ ¬ DeclaredPort declared n) ∧
      gone.Pairwise (·.1 < ·.1) ∧ log = gone.map fun g => ⟨"delete_listener", [("arn", .text g.2)]⟩

/-- Listeners of other load balancers, and all that is no listener, are as they were. -/
structure Beside (a : String) (s t : Resources) : Prop where
  rest : ∃ n ls, t = { s with nextId := n, listeners := ls }
  others : ∀ k l, Fields.get l "LoadBalancerArn" ≠ .text a →
    (t.listeners.get? k = some l ↔ s.listeners.get? k = some l)

/-- The listeners of a load balancer are those that are declared. -/
structure Merged (a : String) (declared : List (ListenerSpec × List Fields)) (s t : Resources)
    (listeners : List Value) (log : List Record) : Prop where
  merges : ∃ writes sweeps, Merges a s t declared listeners writes ∧ Sweeps a s declared sweeps ∧
    log = writes ++ sweeps
  lists : listeners.Perm ((t.listenersOf (.text a)).map .object)
  beside : Beside a s t

section

variable {a arn arn' : String} {n m : Int} {l l' : Fields} {s t u : Resources} {spec : ListenerSpec}
  {actions : List Fields} {K : Int → Prop} {current : Table Key Value} {v : Value} {rs : List Record}
  {known : String × Value}

theorem Stands.port_unique (h : Stands s a n arn l) (h' : Stands s a m arn l') : n = m := by
  have hl := h'.there
  rw [h.there] at hl
  cases hl
  have hport := h.port.symm.trans h'.port
  simpa [Value.int] using hport

/-! ## What is left alone -/

/-- Of the listeners of a load balancer only those on some ports differ, none is gone, and
no other one differs. -/
structure Frames (a : String) (K : Int → Prop) (s t : Resources) : Prop where
  beside : Beside a s t
  ports : ∀ n arn l, ¬ K n → (Stands t a n arn l ↔ Stands s a n arn l)
  grows : ∀ k, t.listeners.get? k = none → s.listeners.get? k = none

theorem Beside.refl (a : String) (s : Resources) : Beside a s s := ⟨⟨_, _, rfl⟩, fun _ _ _ => .rfl⟩

theorem Beside.trans (h : Beside a s t) (h' : Beside a t u) : Beside a s u where
  rest := by
    obtain ⟨n, ls, rfl⟩ := h.rest
    obtain ⟨n', ls', rfl⟩ := h'.rest
    exact ⟨n', ls', rfl⟩
  others k l hl := (h'.others k l hl).trans (h.others k l hl)

theorem Frames.refl (a : String) (K : Int → Prop) (s : Resources) : Frames a K s s :=
  ⟨.refl a s, fun _ _ _ _ => .rfl, fun _ h => h⟩

/-- A listener is put under an ARN that is free or that of the listener on its port. -/
theorem frames_insert {i : Nat} (hlb : Fields.get l "LoadBalancerArn" = .text a)
    (hport : Fields.get l "Port" = .int n)
    (hbefore : ∀ l₀, s.listeners.get? (.text arn) = some l₀ → Stands s a n arn l₀) :
    Frames a (· = n) s { s with nextId := i, listeners := s.listeners.insert (.text arn) l } where
  beside := by
    refine ⟨⟨_, _, rfl⟩, fun k l₀ hl₀ => ?_⟩
    rw [Table.get?_insert]
    by_cases hk : (Key.text arn == k) = true
    · obtain rfl := Key.eq_text_of_beq (BEq.symm hk)
      rw [if_pos hk]
      refine iff_of_false (fun h => hl₀ ?_) fun h => hl₀ (hbefore l₀ h).lb
      rw [← Option.some.inj h, hlb]
    · rw [if_neg hk]
  ports m arn' l₀ hm := by
    by_cases hk : arn = arn'
    · subst hk
      refine iff_of_false (fun h => hm ?_) fun h => hm (h.port_unique (hbefore l₀ h.there))
      exact h.port_unique ⟨Table.get?_insert_self _ _ _, hlb, hport⟩
    · have hget : (s.listeners.insert (.text arn) l).get? (.text arn') = s.listeners.get? (.text arn') :=
        Table.get?_insert_of_ne _ _ (by simpa using hk)
      exact ⟨fun h => ⟨hget ▸ h.there, h.lb, h.port⟩, fun h => ⟨hget.trans h.there, h.lb, h.port⟩⟩
  grows k hk := by
    rw [Table.get?_insert] at hk
    split at hk
    · cases hk
    · exact hk

theorem orderly_insert {i : Nat} (hs : Orderly a s) (hid : s.nextId ≤ i)
    (harn : ∀ m, i ≤ m → ¬ Numbered m arn) (hown : Fields.get l "ListenerArn" = .text arn)
    (hlb : Fields.get l "LoadBalancerArn" = .text a) (hport : Fields.get l "Port" = .int n)
    (halone : ∀ arn' l', Stands s a n arn' l' → arn' = arn) :
    Orderly a { s with nextId := i, listeners := s.listeners.insert (.text arn) l } where
  own {k l'} hl' hlb' := by
    rcases Table.get?_insert_text_iff.1 hl' with ⟨rfl, rfl⟩ | ⟨-, hl'⟩
    · exact ⟨arn, n, rfl, hown, hport⟩
    · exact hs.own hl' hlb'
  unique {m arn₁ arn₂ l₁ l₂} h₁ h₂ := by
    have hold : ∀ {arn' l'}, arn' ≠ arn →
        Stands { s with nextId := i, listeners := s.listeners.insert (.text arn) l } a m arn' l' →
        Stands s a m arn' l' := by
      intro arn' l' hne h
      have hthere := h.there
      rw [Table.get?_insert_of_ne _ _ (by simpa using Ne.symm hne)] at hthere
      exact ⟨hthere, h.lb, h.port⟩
    have hnew : ∀ {l'}, Stands { s with nextId := i, listeners := s.listeners.insert (.text arn) l }
        a m arn l' → m = n :=
      fun h => h.port_unique ⟨Table.get?_insert_self _ _ _, hlb, hport⟩
    by_cases e₁ : arn₁ = arn <;> by_cases e₂ : arn₂ = arn
    · rw [e₁, e₂]
    · subst e₁
      obtain rfl := hnew h₁
      exact absurd (halone _ _ (hold e₂ h₂)) e₂
    · subst e₂
      obtain rfl := hnew h₂
      exact absurd (halone _ _ (hold e₁ h₁)) e₁
    · exact hs.unique (hold e₁ h₁) (hold e₂ h₂)
  fresh {m arn'} hm hnum := by
    rw [Table.get?_insert_of_ne _ _ (by
      rw [Key.text_beq_text, beq_eq_false_iff_ne]
      rintro rfl
      exact harn m hm hnum)]
    exact hs.fresh (hid.trans hm) hnum

/-! ## One listener -/

/-- Whether a described listener differs is decided as it is meant. -/
theorem listenerDiffers_iff {b : Bool}
    (h : listenerDiffers (.object l) spec.protocol (.list (actions.map .object)) = .ok b) :
    b = true ↔ Differs l spec actions := by
  unfold listenerDiffers at h
  simp only [Value.get_object, bind, Except.bind] at h
  unfold Differs
  cases hprotocol : (Fields.get l "Protocol").same spec.protocol with
  | false =>
    simp only [hprotocol, Bool.not_false, if_true] at h
    cases h
    exact iff_of_true rfl (.inl rfl)
  | true =>
    simp only [hprotocol, Bool.not_true, Bool.false_eq_true, if_false] at h
    cases hcurrent : normalize (Fields.get l "DefaultActions") with
    | error e => simp [hcurrent] at h
    | ok current =>
      cases hwanted : normalize (.list (actions.map .object)) with
      | error e => simp [hcurrent, hwanted] at h
      | ok wanted =>
        simp only [hcurrent, hwanted, pure, Except.pure, Except.ok.injEq] at h
        subst h
        simp

theorem ends_createListener
    (hc : s.checkListener "create_listener" .null
      (listenerParams ("LoadBalancerArn", .text a) spec actions) = .ok ()) :
    (createListener (.text a) spec actions).Ends s (.object (newListener a s.nextId spec actions))
      [⟨"create_listener", listenerParams ("LoadBalancerArn", .text a) spec actions⟩]
      (s.addListener (.text (listenerArn s.nextId)) (newListener a s.nextId spec actions)) := by
  have hrefusal : s.refusal
      (.createListener (listenerParams ("LoadBalancerArn", .text a) spec actions)) = .ok () := hc
  refine (Program.ends_request (perform_createListener s _ hc) hrefusal rfl).andThen
    (Program.ends_lift_bind.2 ⟨_, rfl, ?_⟩)
  exact Program.ends_info_bind.2 (Program.ends_pure.2 ⟨rfl, rfl, rfl⟩)

theorem ends_modifyListener (harn : Fields.get l "ListenerArn" = .text arn)
    (hl : s.listeners.get? (.text arn) = some l)
    (hc : s.checkListener "modify_listener" (.text arn)
      (listenerParams ("ListenerArn", .text arn) spec actions) = .ok ()) :
    (modifyListener (.object l) spec actions).Ends s (.object (modifiedListener arn spec actions l))
      [⟨"modify_listener", listenerParams ("ListenerArn", .text arn) spec actions⟩]
      (s.putListener (.text arn) (modifiedListener arn spec actions l)) := by
  have hitem : (Value.object l).item "ListenerArn" = .ok (.text arn) := Fields.item_of_get_text harn
  have hrefusal : s.refusal
      (.modifyListener (listenerParams ("ListenerArn", .text arn) spec actions)) = .ok () := hc
  refine Program.ends_lift_bind.2 ⟨_, hitem, ?_⟩
  refine (Program.ends_request (perform_modifyListener s arn _ rfl hl hc) hrefusal rfl).andThen ?_
  exact Program.ends_info_bind.2 (Program.ends_pure.2 ⟨rfl, rfl, rfl⟩)

/-- A listener is created on a port on which there is none. -/
theorem settles_createListener (hs : Orderly a s) (hfree : ∀ arn l, ¬ Stands s a spec.port arn l)
    (h : (createListener (.text a) spec actions).Ends s v rs t) :
    Settles a spec actions s t v rs ∧ Orderly a t ∧ Frames a (· = spec.port) s t := by
  cases hc : s.checkListener "create_listener" .null
    (listenerParams ("LoadBalancerArn", .text a) spec actions) with
  | error e =>
    have hfail : (createListener (.text a) spec actions).Fails s :=
      (Program.fails_answer (perform_createListener_refused s _ hc)).bind _
    exact absurd h.yields (hfail.1 _ _)
  | ok _ =>
    obtain ⟨rfl, rfl, rfl⟩ := (ends_createListener hc).unique h
    have hnum : Numbered s.nextId (listenerArn s.nextId) := numbered_listenerArn s.nextId
    have hunused := hs.fresh (Nat.le_refl _) hnum
    refine ⟨.created _ _ hfree hunused ⟨Table.get?_insert_self _ _ _, rfl, rfl⟩ ⟨rfl, rfl, rfl⟩, ?_, ?_⟩
    · refine orderly_insert hs (Nat.le_succ _) (fun m hm hm' => ?_) rfl rfl rfl fun arn' l' h' =>
        absurd h' (hfree arn' l')
      exact absurd (hnum.unique hm') (Nat.ne_of_lt hm)
    · refine frames_insert rfl rfl fun l₀ hl₀ => ?_
      rw [hunused] at hl₀
      cases hl₀

/-- The listener on a port is modified. -/
theorem settles_modifyListener (hs : Orderly a s) (hstood : Stands s a spec.port arn l)
    (hdiffers : Differs l spec actions) (h : (modifyListener (.object l) spec actions).Ends s v rs t) :
    Settles a spec actions s t v rs ∧ Orderly a t ∧ Frames a (· = spec.port) s t := by
  obtain ⟨own, _, hown, harn, -⟩ := hs.own hstood.there hstood.lb
  cases hown
  cases hc : s.checkListener "modify_listener" (.text arn)
    (listenerParams ("ListenerArn", .text arn) spec actions) with
  | error e =>
    have hitem : (Value.object l).item "ListenerArn" = .ok (.text arn) := Fields.item_of_get_text harn
    have hrefused := Program.fails_answer (perform_modifyListener_refused s arn _ rfl hc)
    have hfail : (modifyListener (.object l) spec actions).Fails s :=
      (Program.does_lift hitem s).fails_bind (hrefused.bind _)
    exact absurd h.yields (hfail.1 _ _)
  | ok _ =>
    obtain ⟨rfl, rfl, rfl⟩ := (ends_modifyListener harn hstood.there hc).unique h
    have hwritten := written_modifiedListener arn spec actions l
    have hlb : Fields.get (modifiedListener arn spec actions l) "LoadBalancerArn" = .text a := by
      rw [get_modifiedListener (by decide), hstood.lb]
    have hport : Fields.get (modifiedListener arn spec actions l) "Port" = .int spec.port := by
      rw [Fields.get, hwritten.port]; rfl
    have hown : Fields.get (modifiedListener arn spec actions l) "ListenerArn" = .text arn := by
      simp [modifiedListener, listenerParams, Fields.get_put]
    refine ⟨.modified arn l _ hstood hdiffers ⟨Table.get?_insert_self _ _ _, hlb, hport⟩ hwritten, ?_, ?_⟩
    · refine orderly_insert hs (Nat.le_refl _) (fun m hm hm' => ?_) hown hlb hport fun arn' l' h' =>
        hs.unique h' hstood
      have hnone := hs.fresh hm hm'
      rw [hstood.there] at hnone
      cases hnone
    · refine frames_insert hlb hport fun l₀ hl₀ => ?_
      rw [hstood.there] at hl₀
      cases hl₀
      exact hstood

/-- What is described of a port is the listener on it. -/
def Describes (current : Table Key Value) (s : Resources) (a : String) (n : Int) : Prop :=
  ∀ v, current.get? (.number (.integer n)) = some v ↔ ∃ arn l, v = .object l ∧ Stands s a n arn l

theorem settles_ensureListener (hs : Orderly a s) (hknow : Describes current s a spec.port)
    (h : (ensureListener (.text a) (current.get? (portKey spec)) spec actions).Ends s v rs t) :
    Settles a spec actions s t v rs ∧ Orderly a t ∧ Frames a (· = spec.port) s t := by
  unfold ensureListener at h
  cases hget : current.get? (portKey spec) with
  | none =>
    rw [hget] at h
    refine settles_createListener hs (fun arn l hstands => ?_) h
    have hsome := (hknow (.object l)).2 ⟨arn, l, rfl, hstands⟩
    rw [show current.get? (.number (.integer spec.port)) = none from hget] at hsome
    cases hsome
  | some v =>
    rw [hget] at h
    obtain ⟨arn, l, rfl, hstood⟩ := (hknow v).1 hget
    obtain ⟨b, hb, h⟩ := Program.ends_lift_bind.1 h
    cases b with
    | true => exact settles_modifyListener hs hstood ((listenerDiffers_iff hb).1 rfl) h
    | false =>
      obtain ⟨rfl, rfl, rfl⟩ := Program.ends_pure.1 h
      have hsame : ¬ Differs l spec actions := fun hd => Bool.false_ne_true ((listenerDiffers_iff hb).2 hd)
      exact ⟨.kept arn l hstood hsame hstood, hs, .refl a _ _⟩

end

/-! ## The listeners of declared ports -/

section

variable {a : String} {s s' t t' : Resources} {current : Table Key Value}
  {declared : List (ListenerSpec × List Fields)} {listeners : List Value} {log : List Record}

theorem Settles.congr {d : ListenerSpec × List Fields} {v : Value} (h : Settles a d.1 d.2 s t v log)
    (hs : ∀ arn l, Stands s' a d.1.port arn l ↔ Stands s a d.1.port arn l)
    (hgrows : ∀ k, s.listeners.get? k = none → s'.listeners.get? k = none)
    (ht : ∀ arn l, Stands t a d.1.port arn l → Stands t' a d.1.port arn l) :
    Settles a d.1 d.2 s' t' v log := by
  cases h with
  | created arn l free unused stands written =>
    exact .created arn l (fun arn l h => free arn l ((hs arn l).1 h)) (hgrows _ unused)
      (ht _ _ stands) written
  | modified arn l l' stood differs stands written =>
    exact .modified arn l l' ((hs _ _).2 stood) differs (ht _ _ stands) written
  | kept arn l stood same stands => exact .kept arn l ((hs _ _).2 stood) same (ht _ _ stands)

theorem Merges.congr (h : Merges a s t declared listeners log)
    (hs : ∀ d ∈ declared, ∀ arn l, Stands s' a d.1.port arn l ↔ Stands s a d.1.port arn l)
    (hgrows : ∀ k, s.listeners.get? k = none → s'.listeners.get? k = none)
    (ht : ∀ d ∈ declared, ∀ arn l, Stands t a d.1.port arn l → Stands t' a d.1.port arn l) :
    Merges a s' t' declared listeners log := by
  induction h with
  | nil => exact .nil
  | cons head tail ih =>
    obtain ⟨hs, hss⟩ := List.forall_mem_cons.1 hs
    obtain ⟨ht, hts⟩ := List.forall_mem_cons.1 ht
    exact .cons (head.congr hs hgrows ht) (ih hss hts)

theorem merges_ensureListeners (hs : Orderly a s) (hd : declared.Pairwise fun d d' => d.1.port ≠ d'.1.port)
    (hknow : ∀ d ∈ declared, Describes current s a d.1.port)
    (h : (ensureListeners (.text a) current declared).Ends s listeners log t) :
    Merges a s t declared listeners log ∧ Orderly a t ∧ Frames a (DeclaredPort declared) s t := by
  induction declared generalizing s listeners log with
  | nil =>
    obtain ⟨rfl, rfl, rfl⟩ := Program.ends_pure.1 h
    exact ⟨.nil, hs, .refl a _ _⟩
  | cons d declared ih =>
    obtain ⟨v, r₁, u, _, hstep, hloop, rfl⟩ := Program.ends_bind.1 h
    obtain ⟨vs, r₂, _, _, hrest, hpure, rfl⟩ := Program.ends_bind.1 hloop
    obtain ⟨rfl, rfl, rfl⟩ := Program.ends_pure.1 hpure
    obtain ⟨hhead, hu, hframes⟩ := settles_ensureListener hs (hknow d List.mem_cons_self) hstep
    obtain ⟨hne, hd⟩ := List.pairwise_cons.1 hd
    have hports : ∀ d' ∈ declared, ∀ arn l, Stands u a d'.1.port arn l ↔ Stands s a d'.1.port arn l :=
      fun d' hd' arn l => hframes.ports _ arn l (Ne.symm (hne d' hd'))
    have hknow' : ∀ d' ∈ declared, Describes current u a d'.1.port := fun d' hd' v =>
      (hknow d' (List.mem_cons_of_mem _ hd') v).trans
        (exists_congr fun arn => exists_congr fun l => and_congr_right fun _ => (hports d' hd' arn l).symm)
    obtain ⟨htail, ht, hframes'⟩ := ih hu hd hknow' hrest
    refine ⟨?_, ht, ?_⟩
    · rw [List.append_nil]
      refine .cons (hhead.congr (fun _ _ => .rfl) (fun _ h => h) fun arn l hstands => ?_) ?_
      · refine (hframes'.ports _ arn l ?_).2 hstands
        rintro ⟨d', hd', heq⟩
        exact hne d' hd' heq.symm
      · exact htail.congr (fun d' hd' arn l => (hports d' hd' arn l).symm) hframes.grows fun _ _ _ _ h => h
    · refine ⟨hframes.beside.trans hframes'.beside, fun n arn l hn => ?_,
        fun k hk => hframes.grows k (hframes'.grows k hk)⟩
      refine (hframes'.ports n arn l fun ⟨d', hd', heq⟩ => hn ⟨d', List.mem_cons_of_mem _ hd', heq⟩).trans ?_
      exact hframes.ports n arn l fun heq => hn ⟨d, List.mem_cons_self, heq.symm⟩

/-! ## The listeners of a load balancer -/

/-- A listener as it is described under its port. -/
def onPort (r : Int × Fields) : Key × Value := (.number (.integer r.1), .object r.2)

theorem exists_rows (hs : Orderly a s) :
    ∃ rows : List (Int × Fields), s.listenersOf (.text a) = rows.map (·.2) ∧
    (∀ r, r ∈ rows ↔ ∃ arn, Stands s a r.1 arn r.2) ∧ rows.Pairwise fun r r' => r.1 ≠ r'.1 := by
  have hport : ∀ {k l}, s.listeners.get? k = some l → Fields.get l "LoadBalancerArn" = .text a →
      ∃ arn, k = .text arn ∧ Stands s a (numberIn (.object l) "Port") arn l := by
    intro k l hk hlb
    obtain ⟨arn, n, rfl, -, hn⟩ := hs.own hk hlb
    have hnumber : numberIn (.object l) "Port" = n := by
      unfold numberIn
      rw [show Fields.get (Value.object l).fields "Port" = .int n from hn]
    exact ⟨arn, rfl, hk, hlb, hnumber ▸ hn⟩
  refine ⟨(s.listenersOf (.text a)).map fun l => (numberIn (.object l) "Port", l), ?_, fun r => ?_, ?_⟩
  · rw [List.map_map]
    exact (List.map_id _).symm
  · rw [List.mem_map]
    constructor
    · rintro ⟨l, hl, rfl⟩
      obtain ⟨k, hk, hlb⟩ := mem_listenersOf.1 hl
      obtain ⟨arn, -, hstands⟩ := hport hk hlb
      exact ⟨arn, hstands⟩
    · rintro ⟨arn, hstands⟩
      obtain ⟨arn', -, hstands'⟩ := hport hstands.there hstands.lb
      refine ⟨r.2, mem_listenersOf.2 ⟨_, hstands.there, hstands.lb⟩, ?_⟩
      rw [Stands.port_unique hstands' ⟨hstands'.there, hstands.lb, hstands.port⟩]
  · unfold Resources.listenersOf Table.values
    rw [List.pairwise_map, List.pairwise_filter, List.pairwise_map]
    refine s.listeners.distinct.imp_of_mem fun {e e'} he he' hne hlb hlb' heq => ?_
    obtain ⟨arn, hk, hstands⟩ := hport (Table.get?_of_mem he) ((Value.same_text_iff _ _).1 hlb)
    obtain ⟨arn', hk', hstands'⟩ := hport (Table.get?_of_mem he') ((Value.same_text_iff _ _).1 hlb')
    have heq : numberIn (.object e.2) "Port" = numberIn (.object e'.2) "Port" := heq
    rw [heq] at hstands
    rw [hk, hk', hs.unique hstands hstands', BEq.rfl] at hne
    cases hne

theorem beq_number_iff {n m : Int} : (Key.number (.integer n) == .number (.integer m)) = true ↔ n = m := by
  rw [Key.beq_iff_meaning]
  simp [Key.meaning, Number.reduced]

/-- The described listeners by port. -/
theorem entries_byPort (hs : Orderly a s) (h : byPort ((s.listenersOf (.text a)).map .object) = .ok current) :
    ∃ rows : List (Int × Fields), current.entries = rows.map onPort ∧
      (∀ r, r ∈ rows ↔ ∃ arn, Stands s a r.1 arn r.2) ∧
      rows.Pairwise fun r r' => r.1 ≠ r'.1 := by
  obtain ⟨rows, hrows, hmem, hdistinct⟩ := exists_rows hs
  refine ⟨rows, ?_, hmem, hdistinct⟩
  have hmap : ((s.listenersOf (.text a)).map Value.object).mapM
      (fun l => do return (← (← l.item "Port").key, l)) =
        (.ok (rows.map onPort) : Except Error (List (Key × Value))) := by
    rw [hrows, List.map_map, mapM_eq_ok_iff, List.forall₂_map_left_iff,
      List.forall₂_map_right_iff, List.forall₂_same]
    intro r hr
    obtain ⟨arn, hstands⟩ := (hmem r).1 hr
    have hitem : (Value.object r.2).item "Port" = .ok (.int r.1) := by
      rw [← hstands.port]
      exact Fields.item_of_get (by rw [hstands.port]; exact nofun)
    simp only [Function.comp_apply, hitem, bind, Except.bind]
    rfl
  unfold byPort at h
  rw [hmap] at h
  cases h
  refine Table.entries_ofList (List.pairwise_map.2 (hdistinct.imp fun {r r'} hne => ?_))
  exact Bool.eq_false_iff.2 fun hk => hne (beq_number_iff.1 hk)

theorem describes_of_entries {rows : List (Int × Fields)} (hentries : current.entries = rows.map onPort)
    (hmem : ∀ r, r ∈ rows ↔ ∃ arn, Stands s a r.1 arn r.2) (n : Int) : Describes current s a n := by
  intro v
  constructor
  · intro hget
    obtain ⟨k, hk, he⟩ := Entries.mem_of_find? hget
    rw [hentries] at he
    obtain ⟨r, hr, he⟩ := List.mem_map.1 he
    cases he
    obtain rfl := beq_number_iff.1 hk
    obtain ⟨arn, hstands⟩ := (hmem r).1 hr
    exact ⟨arn, r.2, rfl, hstands⟩
  · rintro ⟨arn, l, rfl, hstands⟩
    have he : onPort (n, l) ∈ current.entries :=
      hentries ▸ List.mem_map_of_mem ((hmem (n, l)).2 ⟨arn, hstands⟩)
    exact Table.get?_of_mem he

/-! ## Deleting the rest -/

theorem ends_deleteListeners {row : List (Key × Value)} (h : ∀ e ∈ row, HasArn e.2) :
    (deleteListeners row).Ends s ()
      (row.map fun e => ⟨"delete_listener", [("arn", .text (describedArn e.2))]⟩)
      (s.dropListeners (row.map fun e => .text (describedArn e.2))) := by
  induction row generalizing s with
  | nil =>
    rw [List.map_nil, List.map_nil, dropListeners_nil]
    exact Program.ends_pure.2 ⟨rfl, rfl, rfl⟩
  | cons e row ih =>
    obtain ⟨he, hrow⟩ := List.forall_mem_cons.1 h
    have hrest := ih hrow (s := s.dropListeners [.text (describedArn e.2)])
    rw [dropListeners_dropListeners] at hrest
    refine Program.ends_lift_bind.2 ⟨_, he, ?_⟩
    exact (Program.ends_request (perform_deleteListener s _) rfl rfl).andThen (Program.ends_info_bind.2 hrest)

/-- The listeners on ports that are not declared, in order. -/
theorem stale_rows {rows : List (Int × Fields)} (hentries : current.entries = rows.map onPort)
    (hdistinct : rows.Pairwise fun r r' => r.1 ≠ r'.1) (declared : List (ListenerSpec × List Fields)) :
    ∃ gone : List (Int × Fields), stale current (declared.map (·.1)) = .ok (gone.map onPort) ∧
      (∀ r, r ∈ gone ↔ r ∈ rows ∧ ¬ DeclaredPort declared r.1) ∧ gone.Pairwise fun r r' => r.1 < r'.1 := by
  have hbefore : ∀ r r' : Int × Fields, (onPort r).1.before (onPort r').1 = .ok (decide (r.1 < r'.1)) :=
    fun r r' => Value.before_int r.1 r'.1
  obtain ⟨gone, hgone, hperm, hsorted⟩ := sortBy_key (fun a b : Key × Value => a.1.before b.1) (·.1) hbefore
    (rows.filter fun r => !(declared.map (·.1)).any fun s => (onPort r).1 == portKey s)
  refine ⟨gone, ?_, fun r => ?_, ?_⟩
  · rw [stale, hentries, List.filter_map]
    exact hgone
  · rw [hperm.mem_iff, List.mem_filter, Bool.not_eq_true', List.any_eq_false]
    rw [DeclaredPort, not_exists, List.forall_mem_map]
    refine and_congr_right fun _ => forall_congr' fun d => ?_
    rw [not_and]
    refine imp_congr_right fun _ => ?_
    rw [onPort, portKey, beq_number_iff]
    exact not_congr eq_comm
  · have hne : gone.Pairwise fun r r' => r.1 ≠ r'.1 :=
      (hperm.pairwise_iff fun {r r'} h => h.symm).2 (hdistinct.filter _)
    exact (hsorted.and hne).imp fun h => lt_of_le_of_ne h.1 h.2

theorem get?_dropListeners {gone : List (Int × String)} {k : Key} {l : Fields} :
    (t.dropListeners (gone.map fun g => .text g.2)).listeners.get? k = some l ↔
      t.listeners.get? k = some l ∧ ∀ g ∈ gone, k ≠ .text g.2 := by
  have hany : ((gone.map fun g => Key.text g.2).any (k == ·)) = true ↔ ∃ g ∈ gone, k = .text g.2 := by
    rw [List.any_map, List.any_eq_true]
    exact exists_congr fun g => and_congr_right fun _ => Key.beq_text_iff
  rw [dropListeners_listeners, Table.get?_eraseAll]
  split
  · rename_i h
    obtain ⟨g, hg, hk⟩ := hany.1 h
    exact iff_of_false nofun fun h => h.2 g hg hk
  · rename_i h
    exact (and_iff_left fun g hg hk => h (hany.2 ⟨g, hg, hk⟩)).symm

/-- What is left when the listeners on ports that are not declared are deleted. -/
theorem stands_dropListeners {gone : List (Int × String)} (K : Int → Prop)
    (hgone : ∀ n arn, (n, arn) ∈ gone ↔ (∃ l, Stands t a n arn l) ∧ ¬ K n) :
    (∀ n arn l, Stands (t.dropListeners (gone.map fun g => .text g.2)) a n arn l ↔ Stands t a n arn l ∧ K n) ∧
      Beside a t (t.dropListeners (gone.map fun g => .text g.2)) := by
  refine ⟨fun n arn l => ?_, ⟨_, _, rfl⟩, fun k l hl => ?_⟩
  · constructor
    · intro h
      obtain ⟨hthere, hleft⟩ := get?_dropListeners.1 h.there
      refine ⟨⟨hthere, h.lb, h.port⟩, ?_⟩
      by_contra hn
      exact hleft (n, arn) ((hgone n arn).2 ⟨⟨l, hthere, h.lb, h.port⟩, hn⟩) rfl
    · rintro ⟨h, hn⟩
      refine ⟨get?_dropListeners.2 ⟨h.there, ?_⟩, h.lb, h.port⟩
      rintro ⟨m, arn'⟩ hg heq
      cases heq
      obtain ⟨⟨l', h'⟩, hm⟩ := (hgone m _).1 hg
      exact hm (h.port_unique h' ▸ hn)
  · rw [get?_dropListeners]
    refine and_iff_left_of_imp fun hk => ?_
    rintro ⟨m, arn⟩ hg rfl
    obtain ⟨⟨l', h'⟩, -⟩ := (hgone m arn).1 hg
    have hthere := h'.there
    rw [hk] at hthere
    cases hthere
    exact hl h'.lb

/-- The listeners that are returned, with their ports. -/
theorem Merges.exists_rows (h : Merges a s t declared listeners log) : ∃ rows : List (Int × Fields),
    listeners = rows.map (fun r => .object r.2) ∧ rows.map (·.1) = declared.map (·.1.port) ∧
      ∀ r ∈ rows, ∃ arn, Stands t a r.1 arn r.2 := by
  induction h with
  | nil => exact ⟨[], rfl, rfl, nofun⟩
  | @cons d ds v vs log logs head tail ih =>
    obtain ⟨rows, rfl, hports, hrows⟩ := ih
    obtain ⟨l, arn, rfl, hstands⟩ : ∃ l arn, v = .object l ∧ Stands t a d.1.port arn l := by
      cases head with
      | created arn l free unused stands written => exact ⟨l, arn, rfl, stands⟩
      | modified arn l l' stood differs stands written => exact ⟨l', arn, rfl, stands⟩
      | kept arn l stood same stands => exact ⟨l, arn, rfl, stands⟩
    exact ⟨(d.1.port, l) :: rows, rfl, by rw [List.map_cons, List.map_cons, hports],
      List.forall_mem_cons.2 ⟨⟨arn, hstands⟩, hrows⟩⟩

/-- The listeners of the declared ports are all that the load balancer has. -/
theorem Merges.perm (h : Merges a s t declared listeners log)
    (hd : declared.Pairwise fun d d' => d.1.port ≠ d'.1.port) (ht : Orderly a t)
    (honly : ∀ n arn l, Stands t a n arn l → DeclaredPort declared n) :
    listeners.Perm ((t.listenersOf (.text a)).map .object) := by
  obtain ⟨rows, rfl, hports, hrows⟩ := h.exists_rows
  obtain ⟨rows', hrows', hmem, hdistinct⟩ := Converge.exists_rows ht
  have hnodup : ∀ {rs : List (Int × Fields)}, (rs.Pairwise fun r r' => r.1 ≠ r'.1) → rs.Nodup :=
    fun h => h.imp fun hne heq => hne (congrArg Prod.fst heq)
  have hdistinct' : rows.Pairwise fun r r' => r.1 ≠ r'.1 := by
    rw [← List.pairwise_map (f := Prod.fst) (R := (· ≠ ·)), hports]
    exact List.pairwise_map.2 hd
  have hperm : rows.Perm rows' := by
    refine (List.perm_ext_iff_of_nodup (hnodup hdistinct') (hnodup hdistinct)).2 fun r => ?_
    rw [hmem]
    refine ⟨hrows r, fun ⟨arn, hstands⟩ => ?_⟩
    obtain ⟨d, hd, hport⟩ := honly _ _ _ hstands
    have hin : r.1 ∈ rows.map (·.1) := hports ▸ List.mem_map.2 ⟨d, hd, hport⟩
    obtain ⟨r', hr', hp⟩ := List.mem_map.1 hin
    obtain ⟨arn', hstands'⟩ := hrows r' hr'
    have hp : r'.1 = r.1 := hp
    rw [hp] at hstands'
    obtain rfl := ht.unique hstands hstands'
    have hl := hstands.there.symm.trans hstands'.there
    rwa [Prod.ext hp.symm (Option.some.inj hl)]
  rw [hrows', List.map_map]
  exact hperm.map _

theorem Orderly.dropListeners (ht : Orderly a t) (ks : List Key) : Orderly a (t.dropListeners ks) where
  own hl hlb := ht.own (Table.get?_of_get?_eraseAll hl) hlb
  unique h h' := ht.unique ⟨Table.get?_of_get?_eraseAll h.there, h.lb, h.port⟩
    ⟨Table.get?_of_get?_eraseAll h'.there, h'.lb, h'.port⟩
  fresh {n arn} hn hnum := by
    rw [dropListeners_listeners, Table.get?_eraseAll, ht.fresh hn hnum, ite_self]

/-! ## The whole run -/

/-- The listeners that a Service declares, with their actions. -/
def declaration (service : Value) (settings : ServiceSettings) (groups : TargetGroups) :
    Except Error (List (ListenerSpec × List Fields)) := do
  let specs ← listenerSpecs service settings
  let actions ← specs.mapM fun spec => buildActions settings spec.backend groups
  return specs.zip actions

variable {service : Value} {settings : ServiceSettings} {groups : TargetGroups} {specs : List ListenerSpec}
  {actions : List (List Fields)}

theorem Asks.declaration_eq (h : Asks service settings groups specs actions) :
    declaration service settings groups = .ok (specs.zip actions) := by
  unfold declaration
  rw [h.1]
  simp only [bind, Except.bind, h.2]
  rfl

theorem Orderly.hasArn {n : Int} {arn : String} {l : Fields} (hs : Orderly a s) (h : Stands s a n arn l) :
    HasArn (.object l) ∧ describedArn (.object l) = arn := by
  obtain ⟨own, -, hown, hget, -⟩ := hs.own h.there h.lb
  cases hown
  exact hasArn_of_get hget

/-- The rows of ports that are not declared are the listeners that stand on them. -/
theorem Orderly.mem_gone {gone rows : List (Int × Fields)} (hs : Orderly a s)
    (hmem : ∀ r, r ∈ rows ↔ ∃ arn, Stands s a r.1 arn r.2)
    (hgone : ∀ r, r ∈ gone ↔ r ∈ rows ∧ ¬ DeclaredPort declared r.1) (n : Int) (arn : String) :
    (n, arn) ∈ gone.map (fun r => (r.1, describedArn (.object r.2))) ↔
      (∃ l, Stands s a n arn l) ∧ ¬ DeclaredPort declared n := by
  rw [List.mem_map]
  constructor
  · rintro ⟨r, hr, heq⟩
    cases heq
    obtain ⟨hrow, hn⟩ := (hgone r).1 hr
    obtain ⟨arn, hstands⟩ := (hmem r).1 hrow
    rw [(hs.hasArn hstands).2]
    exact ⟨⟨r.2, hstands⟩, hn⟩
  · rintro ⟨⟨l, hstands⟩, hn⟩
    exact ⟨(n, l), (hgone _).2 ⟨(hmem _).2 ⟨arn, hstands⟩, hn⟩, by rw [(hs.hasArn hstands).2]⟩

/-- Deleting the listeners on ports that are not declared, after those on the declared ones were ensured. -/
theorem sweeps_deleteListeners {gone rows : List (Int × Fields)} (hs : Orderly a s)
    (hmem : ∀ r, r ∈ rows ↔ ∃ arn, Stands s a r.1 arn r.2)
    (hgone : ∀ r, r ∈ gone ↔ r ∈ rows ∧ ¬ DeclaredPort declared r.1)
    (hsorted : gone.Pairwise fun r r' => r.1 < r'.1) (hframes : Frames a (DeclaredPort declared) s t)
    (h : (deleteListeners (gone.map onPort)).Ends t () log t') :
    Sweeps a s declared log ∧ Beside a t t' ∧ (∃ ks, t' = t.dropListeners ks) ∧
      ∀ n arn l, Stands t' a n arn l ↔ Stands t a n arn l ∧ DeclaredPort declared n := by
  have hhas : ∀ e ∈ gone.map onPort, HasArn e.2 := by
    refine List.forall_mem_map.2 fun r hr => ?_
    obtain ⟨arn, hstands⟩ := (hmem r).1 ((hgone r).1 hr).1
    exact (hs.hasArn hstands).1
  have hleft := hs.mem_gone hmem hgone
  obtain ⟨-, rfl, rfl⟩ := (ends_deleteListeners hhas).unique h
  have hdrop := stands_dropListeners (t := t) (DeclaredPort declared) fun n arn => (hleft n arn).trans
    (and_congr_left fun hn => exists_congr fun l => (hframes.ports n arn l hn).symm)
  rw [List.map_map] at hdrop
  refine ⟨⟨_, hleft, List.pairwise_map.2 hsorted, ?_⟩, ?_, ⟨_, rfl⟩, ?_⟩
  · rw [List.map_map, List.map_map]
    rfl
  · rw [List.map_map]
    exact hdrop.2
  · rw [List.map_map]
    exact hdrop.1

theorem merged_convergeListeners (hs : Orderly a s)
    (h : (convergeListeners (.text a) service settings groups).Ends s listeners log t) :
    ∃ specs actions, Asks service settings groups specs actions ∧
      Merged a (specs.zip actions) s t listeners log := by
  obtain ⟨specs, hspecs, h⟩ := Program.ends_lift_bind.1 h
  obtain ⟨actions, hactions, h⟩ := Program.ends_lift_bind.1 h
  have hasks : Asks service settings groups specs actions := ⟨hspecs, hactions⟩
  rw [Program.ends_read_bind (perform_listeners s (.text a)) rfl] at h
  obtain ⟨current, hcurrent, h⟩ := Program.ends_lift_bind.1 h
  obtain ⟨vs, writes, u, _, hensure, hrest, rfl⟩ := Program.ends_bind.1 h
  obtain ⟨row, hrow, hrest⟩ := Program.ends_lift_bind.1 hrest
  obtain ⟨_, sweeps, _, _, hdelete, hpure, rfl⟩ := Program.ends_bind.1 hrest
  obtain ⟨rfl, rfl, rfl⟩ := Program.ends_pure.1 hpure
  refine ⟨specs, actions, hasks, ?_⟩
  obtain ⟨rows, hentries, hmem, hdistinct⟩ := entries_byPort hs hcurrent
  have hd := hasks.distinct
  obtain ⟨hmerges, hu, hframes⟩ := merges_ensureListeners hs hd
    (fun d _ => describes_of_entries hentries hmem d.1.port) hensure
  obtain ⟨gone, hstale, hgone, hsorted⟩ := stale_rows hentries hdistinct (specs.zip actions)
  rw [List.map_fst_zip (Nat.le_of_eq (mapM_eq_ok_iff.1 hactions).length_eq), hrow] at hstale
  cases hstale
  obtain ⟨hsweeps, hbeside, ⟨ks, rfl⟩, hstands⟩ :=
    sweeps_deleteListeners hs hmem hgone hsorted hframes hdelete
  have hmerges' : Merges a s (u.dropListeners ks) (specs.zip actions) _ writes :=
    hmerges.congr (fun _ _ _ _ => .rfl) (fun _ h => h) fun d hd arn l h => (hstands _ _ _).2 ⟨h, d, hd, rfl⟩
  refine ⟨⟨writes, sweeps, hmerges', hsweeps, by rw [List.append_nil]⟩, ?_, hframes.beside.trans hbeside⟩
  exact hmerges'.perm hd (hu.dropListeners ks) fun n arn l h => ((hstands n arn l).1 h).2

end

/-! ## Runs that are not cut off -/

/-- Where the declared listeners cannot be told, all is left as it was. -/
theorem run_of_declaration_error (a : String) {service : Value} {settings : ServiceSettings}
    {groups : TargetGroups} {e : Error} (he : declaration service settings groups = .error e) {γ : Type}
    (gate : Gate γ) (c : γ) (m : Memory) :
    (convergeListeners (.text a) service settings groups).run (Memory.cloud gate) (c, m) =
      (.error e, (c, m)) := by
  unfold declaration at he
  unfold convergeListeners
  cases hspecs : listenerSpecs service settings with
  | error e' =>
    rw [hspecs] at he
    cases he
    rfl
  | ok specs =>
    cases hactions : specs.mapM fun spec => buildActions settings spec.backend groups with
    | error e' =>
      simp only [hspecs, hactions, bind, Except.bind] at he
      cases he
      show (liftM (specs.mapM fun spec => buildActions settings spec.backend groups) >>=
        _ : Program (List Value)).run _ _ = _
      rw [hactions]
      rfl
    | ok actions => simp [hspecs, hactions, bind, Except.bind, pure, Except.pure] at he

/-- The listeners of a load balancer are merged with those that a Service declares, in the order in which
their ports come first. Where these cannot be told, with whatever gate, all is left as it was. -/
theorem convergeListeners_run (a : String) (service : Value) (settings : ServiceSettings)
    (groups : TargetGroups) (m : Memory) (hm : Orderly a m.resources) :
    (∀ listeners m', (convergeListeners (.text a) service settings groups).run
        (Memory.cloud Gate.free) ((), m) =
        (.ok listeners, ((), m')) →
      ∃ declared numbers log, declaration service settings groups = .ok declared ∧
        portNumbers service = .ok numbers ∧
        declared.map (·.1.port) = numbers.eraseDups ∧ m'.records = m.records ++ log ∧
        Merged a declared m.resources m'.resources listeners log) ∧
    ∀ {γ : Type} (gate : Gate γ) (c : γ) (e : Error), declaration service settings groups = .error e →
      (convergeListeners (.text a) service settings groups).run (Memory.cloud gate) (c, m) =
        (.error e, (c, m)) := by
  refine ⟨fun listeners m' hrun => ?_, fun gate c e he => run_of_declaration_error a he gate c m⟩
  obtain ⟨log, hrecords, hends⟩ := Program.run_free_eq_ok_iff.1 hrun
  obtain ⟨specs, actions, hasks, hmerged⟩ := merged_convergeListeners hm hends
  obtain ⟨numbered, hnumbers, -⟩ := ports_listenerSpecs hasks.1
  refine ⟨_, _, log, hasks.declaration_eq, hnumbers, ?_, hrecords, hmerged⟩
  have hlength : specs.length ≤ actions.length := Nat.le_of_eq (mapM_eq_ok_iff.1 hasks.2).length_eq
  calc (specs.zip actions).map (·.1.port) = ((specs.zip actions).map (·.1)).map (·.port) := List.map_map.symm
    _ = _ := by rw [List.map_fst_zip hlength, listenerSpecs_order hasks.1 hnumbers]

/-! ## A sample -/

/-- A Service with ports of the numbers 80 and 443. -/
def twoPorts : Value :=
  .object [("metadata", .object [("namespace", .text "default"), ("name", .text "web")]),
    ("spec", .object [("ports", .list [.object [("port", .int 80)], .object [("port", .int 443)]])])]

/-- A target group for each of the ports. -/
def twoGroups : TargetGroups where
  byBackend := .ofList [(⟨.text "web", .text "80", .text "TCP"⟩, ⟨.text "tg-80", .text "ip", []⟩),
    (⟨.text "web", .text "443", .text "TCP"⟩, ⟨.text "tg-443", .text "ip", []⟩)]

/-- A listener of the load balancer `lb` with no actions. -/
def plainListener (n : Nat) (port : Int) : Fields :=
  newListener "lb" n ⟨port, .text "TCP", ⟨.text "web", .text (Text.decimal port), .text "TCP"⟩⟩ []

/-- A cloud in which `lb` has listeners on the ports 443 and 22. -/
def mixedListeners : Resources :=
  (({} : Resources).addListener (.text (listenerArn 1)) (plainListener 1 443)).addListener
    (.text (listenerArn 2))
    (plainListener 2 22)

theorem orderly_mixedListeners : Orderly "lb" mixedListeners := by
  have hempty : Orderly "lb" {} := ⟨nofun, (fun h => nomatch h.there), fun _ _ => rfl⟩
  have hlater : ∀ n m, n + 1 ≤ m → ¬ Numbered m (listenerArn n) := fun n m h hm =>
    absurd ((numbered_listenerArn n).unique hm) (Nat.ne_of_lt h)
  have hfirst : Orderly "lb" (({} : Resources).addListener (.text (listenerArn 1)) (plainListener 1 443)) :=
    orderly_insert hempty (by decide) (hlater 1) rfl rfl rfl fun _ _ h => nomatch h.there
  refine orderly_insert hfirst (by decide) (hlater 2) rfl rfl rfl fun arn l h => ?_
  rcases Table.get?_insert_text_iff.1 h.there with ⟨-, rfl⟩ | ⟨-, hthere⟩
  · cases h.port
  · cases hthere

/-- On port 80 a listener is created, that on port 443 is modified, and that on port 22 is deleted. -/
theorem convergeListeners_run_mixed : ∃ listeners m' declared log,
    (convergeListeners (.text "lb") twoPorts {} twoGroups).run (Memory.cloud Gate.free)
        ((), ⟨mixedListeners, []⟩) =
        (.ok listeners, ((), m')) ∧
      declared.map (·.1.port) = [80, 443] ∧
      log.map (·.name) = ["create_listener", "modify_listener", "delete_listener"] ∧
      Merged "lb" declared mixedListeners m'.resources listeners log := by
  have hok : ((convergeListeners (.text "lb") twoPorts {} twoGroups).run (Memory.cloud Gate.free)
      ((), ⟨mixedListeners, []⟩)).1.isOk = true := by
    set_option maxRecDepth 100000 in decide +kernel
  have hnames : ((convergeListeners (.text "lb") twoPorts {} twoGroups).run (Memory.cloud Gate.free)
      ((), ⟨mixedListeners, []⟩)).2.2.records.map (·.name) = ["create_listener", "modify_listener",
      "delete_listener"] := by
    set_option maxRecDepth 100000 in decide +kernel
  match h : (convergeListeners (.text "lb") twoPorts {} twoGroups).run (Memory.cloud Gate.free)
    ((), ⟨mixedListeners, []⟩) with
  | (.error e, _) => simp [h, Except.isOk, Except.toBool] at hok
  | (.ok listeners, ((), m')) =>
    obtain ⟨declared, numbers, log, -, hnumbers, hports, hrecords, hmerged⟩ :=
      (convergeListeners_run "lb" twoPorts {} twoGroups ⟨mixedListeners, []⟩ orderly_mixedListeners).1
        listeners m' h
    cases hnumbers
    rw [h, hrecords] at hnames
    exact ⟨listeners, m', declared, log, rfl, hports, hnames, hmerged⟩

end Converge

end Balancer
