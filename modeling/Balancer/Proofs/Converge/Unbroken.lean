import Balancer.Proofs.Converge.Retained
import Balancer.Proofs.Converge.Strict

/-!
# Make before break

Where the load balancer of a Service stands, a reconcile never breaks what is served, wherever it is cut off.

* `Serves n b g u` : the target group of a key is that of a backend, and contains exactly the targets that
  the backend resolves to;
* `Unbroken a s u` : declared ports keep their listeners, a listener that is as it was keeps its target
  groups, and any other one forwards to a target group that is served;
* `Harmless q v` : a request takes no target from a backend that resolves to it, and if it is about a
  listener, all backends are served;
* `Aside`, `Serving` : what holds before the listeners are converged, and from then on;
* `convergeService_unbroken` : every state that a reconcile visits is unbroken, and every request is harmless.
-/

namespace Balancer

set_option autoImplicit false

namespace Converge

open Cluster Resources Routing Program

/-! ## What is served -/

/-- A listener forwards to the target group of a key. -/
def ForwardsTo (l : Fields) (g : Key) : Prop :=
  ∃ as a, actionsOf l = .ok as ∧ a ∈ as ∧ a.get "TargetGroupArn" = .ok g.toValue

/-- The target group of a key is that of a backend, and contains exactly the targets that
the backend resolves to. -/
structure Serves (i : Inputs) (service : Value) (settings : ServiceSettings) (n : String)
    (b : Backend) (g : Key) (u : Resources) :
    Prop where
  named : GroupNamed n g u
  targets : ∃ ts, resolveTargets i.store service b settings.targetGroup.targetType = .ok ts ∧
    (∀ t ∈ ts, HasTarget g t u) ∧
    ∀ x ∈ u.targetsOf g, ∃ t ∈ ts, x.alike t.toValue = true

/-- The backends of a Service are served, each by the one target group of its name. -/
def AllServed (i : Inputs) (service : Value) (settings : ServiceSettings) (u : Resources) : Prop :=
  ∀ n b, BackendOf i service settings n b →
    ∃ g, Serves i service settings n b g u ∧ ∀ g', GroupNamed n g' u → g' = g

/-- A port that a Service declares. -/
def Declares (service : Value) (settings : ServiceSettings) (spec : ListenerSpec) : Prop :=
  ∃ specs, listenerSpecs service settings = .ok specs ∧ spec ∈ specs

/-- Since a state nothing is broken that a load balancer serves. -/
structure Unbroken (i : Inputs) (service : Value) (settings : ServiceSettings) (a : String)
    (s u : Resources) : Prop where
  /-- The load balancer is there. -/
  lb : (u.loadBalancers.get? (.text a)).isSome
  /-- The listener of a declared port is still on it. -/
  kept : ∀ k l spec, Declares service settings spec → s.listeners.get? k = some l → On a (portKey spec) l →
    ∃ l', u.listeners.get? k = some l' ∧ On a (portKey spec) l'
  /-- A listener that is as it was forwards to target groups that are still there. -/
  backed : ∀ k l g, s.listeners.get? k = some l → u.listeners.get? k = some l → ForwardsTo l g →
    (s.targetGroups.get? g).isSome →
    (u.targetGroups.get? g).isSome
  /-- A listener that is new or modified is on a declared port, and unless an action is declared for it, it
  forwards to the target group of its backend, which is served. -/
  switched : ∀ k l, u.listeners.get? k = some l → s.listeners.get? k ≠ some l →
    ∃ spec, Declares service settings spec ∧
    On a (portKey spec) l ∧ (Actions.isUsed spec.backend.port = false →
      ∃ n arn, BackendOf i service settings n spec.backend ∧
      Fields.get l "DefaultActions" = .list ((numbered [forward (.text arn)]).map .object) ∧
      Serves i service settings n spec.backend (.text arn) u)
  /-- Once a listener is new or modified, all backends are served. -/
  served : (∃ k l, u.listeners.get? k = some l ∧ s.listeners.get? k ≠ some l) → AllServed i service settings u

/-- A request that creates a listener or modifies one. -/
def Switches : Request → Prop
  | .createListener _ | .modifyListener _ => True
  | _ => False

/-- A request that retains the targets which the backends of a Service resolve to. A listener is created or
modified only when all backends are served. -/
structure Harmless (i : Inputs) (service : Value) (settings : ServiceSettings) (q : Request)
    (v : Resources) : Prop where
  retains : Retains i service settings v (v.perform q).2
  prepared : Switches q → AllServed i service settings v

section

variable {i : Inputs} {service : Value} {settings : ServiceSettings} {groups : TargetGroups}
  {n a arn : String} {b : Backend} {g : Key} {q : Request} {specs : List ListenerSpec} {ts : List Target}
  {wanted : List (Key × Key)} {s t u : Resources}

theorem serves_of_targetsMet (hn : GroupNamed n g u) (h : TargetsMet (u.targetsOf g) wanted)
    (hts : resolveTargets i.store service b settings.targetGroup.targetType = .ok ts)
    (hw : targetKeys (ts.map Target.toValue) = .ok wanted) : Serves i service settings n b g u := by
  obtain ⟨ks, hdescribed, hsame⟩ := h
  refine ⟨hn, ts, hts, fun t ht => ?_, fun x hx => ?_⟩
  · obtain ⟨k, hk, hkey⟩ := exists_of_mapM hw t.toValue (List.mem_map_of_mem ht)
    obtain rfl : t = Target.ofKey k := Target.eq_ofKey_of_key hkey
    rw [HasTarget, hdescribed.any_alike, hsame]
    exact List.contains_iff_exists_mem_beq.2 ⟨k, hk, BEq.rfl⟩
  · obtain ⟨k, hk, hkey⟩ := exists_of_mapM hdescribed.2 x hx
    have hin : wanted.contains k = true := by
      rw [← hsame]
      exact List.contains_iff_exists_mem_beq.2 ⟨k, hk, BEq.rfl⟩
    obtain ⟨k', hk', hkk⟩ := List.contains_iff_exists_mem_beq.1 hin
    obtain ⟨v, hv, hkey'⟩ := mem_of_mapM hw k' hk'
    obtain ⟨t, ht, rfl⟩ := List.mem_map.1 hv
    obtain rfl : t = Target.ofKey k' := Target.eq_ofKey_of_key hkey'
    refine ⟨_, ht, ?_⟩
    rw [Target.alike_ofKey (hdescribed.1 x hx) hkey]
    exact hkk

/-- The target groups that are ready are those of the backends, and served. -/
theorem GroupsReady.serves (h : GroupsReady i service settings groups u)
    (hd : DistinctBackends i service settings) (hspecs : listenerSpecs service settings = .ok specs)
    (hb : b ∈ specs.map (·.backend)) (hused : Actions.isUsed b.port = false) :
    ∃ n key arn tt ts, BackendOf i service settings n b ∧ b.key = .ok key ∧
      groups.byBackend.get? key = some ⟨.text arn, tt, ts⟩ ∧ Serves i service settings n b (.text arn) u := by
  obtain ⟨_, _, specs', _, -, hspecs', hready, -⟩ := h
  rw [hspecs] at hspecs'
  cases hspecs'
  obtain ⟨key, g, hkey, hg, plan, arn, ts, wanted, hplan, hts, hw, rfl, hgroup⟩ :=
    hready.ready (hd specs hspecs) (fun key hc => by simp [Table.contains] at hc) b hb hused
  have hbackend : BackendOf i service settings plan.name b :=
    ⟨specs, hspecs, hb, hused, (planGroup_eq_ok hplan).1⟩
  exact ⟨_, key, arn, _, ts, hbackend, hkey, hg,
    serves_of_targetsMet hgroup.named hgroup.furnished.targets hts hw⟩

/-- The target group of a backend is one of the table. -/
theorem GroupsReady.serves_named (h : GroupsReady i service settings groups u)
    (hd : DistinctBackends i service settings) (hb : BackendOf i service settings n b) :
    ∃ arn tt ts, (⟨.text arn, tt, ts⟩ : TargetGroup) ∈ groups.byBackend.values ∧
      Serves i service settings n b (.text arn) u := by
  obtain ⟨specs, hspecs, hmem, hused, hn⟩ := hb
  obtain ⟨n', key, arn, tt, ts, ⟨-, -, -, -, hn'⟩, -, hg, hserves⟩ := h.serves hd hspecs hmem hused
  obtain rfl : n = n' := Except.ok.inj (hn.symm.trans hn')
  exact ⟨arn, tt, ts, Table.mem_values_iff.2 ⟨key, hg⟩, hserves⟩

theorem GroupsReady.allServed (h : GroupsReady i service settings groups u) (hu : u.WellFormed)
    (hd : DistinctBackends i service settings) : AllServed i service settings u := by
  intro n b hb
  obtain ⟨arn, -, -, -, hserves⟩ := h.serves_named hd hb
  exact ⟨.text arn, hserves, fun g' hg' => hg'.unique hu hserves.named⟩

theorem harmless_of_retains (h : Retains i service settings s (s.perform q).2) (hq : ¬ Switches q) :
    Harmless i service settings q s := ⟨h, fun hs => absurd hs hq⟩

theorem not_switches_of_isSafe (h : IsSafe q) : ¬ Switches q := by
  cases q with
  | createListener params => exact h.elim
  | modifyListener params => exact h.elim
  | _ => exact id

/-- Where the listeners are the same, nothing is broken as long as their target groups are there. -/
theorem unbroken_of_listeners (hlb : (u.loadBalancers.get? (.text a)).isSome) (hl : u.listeners = s.listeners)
    (hg : ∀ k l g, u.listeners.get? k = some l → ForwardsTo l g → (s.targetGroups.get? g).isSome →
      (u.targetGroups.get? g).isSome) :
    Unbroken i service settings a s u where
  lb := hlb
  kept k l spec _ hk hon := ⟨l, hl ▸ hk, hon⟩
  backed k l g _ := hg k l g
  switched k l hk hne := absurd (hl ▸ hk) hne
  served := by
    rintro ⟨k, l, hk, hne⟩
    exact absurd (hl ▸ hk) hne

end

/-! ## Before the listeners -/

/-- The load balancer of a Service is there, with the scheme that is asked for. -/
def Standing (i : Inputs) (service : Value) (settings : ServiceSettings) (a : String)
    (s : Resources) : Prop :=
  ∃ ns name n fs, names service = .ok (ns, name) ∧ i.identity.nameLb ns name = .ok n ∧
    s.loadBalancers.get? (.text a) = some fs ∧
    Fields.get fs "LoadBalancerName" = .text n ∧ Fields.get fs "Scheme" = .text settings.loadBalancer.scheme

/-- The load balancer and the target groups are there, and no listener has changed. -/
structure Aside (a : String) (s u : Resources) : Prop where
  wellFormed : u.WellFormed
  lb : (u.loadBalancers.get? (.text a)).isSome
  groups : ∀ g, (s.targetGroups.get? g).isSome → (u.targetGroups.get? g).isSome
  listeners : u.listeners = s.listeners

section

variable {i : Inputs} {service : Value} {settings : ServiceSettings} {groups : TargetGroups}
  {n a : String} {fs : Fields} {lb : LoadBalancerConfig} {q : Request} {s t u : Resources}

theorem Aside.unbroken (h : Aside a s u) : Unbroken i service settings a s u :=
  unbroken_of_listeners h.lb h.listeners fun _ _ g _ _ => h.groups g

/-- Requests about a load balancer that is there. -/
theorem Aside.atLb (h : Aside a s u) (hq : AtLb (.text a) q) : Aside a s (u.perform q).2 := by
  obtain ⟨fs, hfs⟩ := Option.isSome_iff_exists.1 h.lb
  rcases hq.cases hfs with hsame | ⟨f, v, hf, hput⟩ | ⟨l, hput⟩ | ⟨l, hput⟩
  · rwa [hsame]
  · rw [hput]
    refine ⟨h.wellFormed.putLb hfs (AgreeIn.put hf v fs), ?_, h.groups, h.listeners⟩
    rw [putLb_loadBalancers, Table.get?_insert_self]
    rfl
  · rw [hput]
    exact ⟨h.wellFormed.putTags _ _, h.lb, h.groups, h.listeners⟩
  · rw [hput]
    exact ⟨h.wellFormed.putLbAttributes _ _, h.lb, h.groups, h.listeners⟩

theorem safe_aside {α : Type} {p : Program α} (hp : p.Asks (AtLb (.text a))) (h : Aside a s t) :
    p.Safe (Harmless i service settings) (Aside a s) (fun _ _ => True) t :=
  hp.safe (fun _ u hq hu => ⟨harmless_of_retains (preserves_gentle hq.gentle u).retains
    (not_switches_of_isSafe hq.isSafe), hu.atLb hq⟩) h

/-- The load balancer of the name has the scheme, so that it is modified. -/
theorem safe_ensureLb_aside (hn : lb.name = .text n)
    (hscheme : lb.scheme = .text settings.loadBalancer.scheme) (h : Aside a s t)
    (hfs : t.loadBalancers.get? (.text a) = some fs) (hname : Fields.get fs "LoadBalancerName" = .text n)
    (hsame : Fields.get fs "Scheme" = .text settings.loadBalancer.scheme) :
    (ensureLb lb).Safe (Harmless i service settings) (Aside a s)
      (fun live _ => live.item "LoadBalancerArn" = .ok (.text a)) t := by
  have harn : (Value.object fs).item "LoadBalancerArn" = .ok (.text a) := by
    obtain ⟨a', ha', harn⟩ := h.wellFormed.lbOwn hfs
    cases ha'
    exact Fields.item_of_get_text harn
  have hread : (answer (.loadBalancerNamed (.text n))).Safe (Harmless i service settings) (Aside a s)
      (fun live u => u = t ∧ live = .object fs) t := by
    refine safe_answer (harmless_of_retains (Retains.refl i service settings t) id) h h
      fun live hlive => ⟨rfl, ?_⟩
    rw [perform_loadBalancerNamed, h.wellFormed.uniqueLbNames.lbNamed hfs hname] at hlive
    exact (Except.ok.inj hlive).symm
  unfold ensureLb
  rw [hn]
  refine Safe.bind hread fun live u _ hlive => ?_
  obtain ⟨rfl, rfl⟩ := hlive
  refine safe_lift_bind h fun scheme hs => ?_
  obtain rfl : .text settings.loadBalancer.scheme = scheme := hsame.symm.trans (Except.ok.inj hs)
  have hkeeps : (!(Value.text settings.loadBalancer.scheme).same lb.scheme) = false := by
    rw [hscheme]
    simp
  rw [if_neg (Bool.eq_false_iff.1 hkeeps)]
  exact Safe.bind (safe_aside (asks_modifyLb harn) h) fun _ v hv _ => safe_pure hv harn

theorem safe_convergeLb_aside (hs : s.WellFormed) (h : Standing i service settings a s) :
    (convergeLb i service settings).Safe (Harmless i service settings) (Aside a s)
      (fun live _ => live.item "LoadBalancerArn" = .ok (.text a)) s := by
  obtain ⟨ns, name, n, fs, hnames, hn, hfs, hname, hscheme⟩ := h
  have haside : Aside a s s := ⟨hs, by rw [hfs]; rfl, fun _ h => h, rfl⟩
  have hsurvey := surveys_buildLb i service settings
  have hbuild : (buildLb i service settings).Safe (Harmless i service settings) (Aside a s)
      (fun lb u => u = s ∧ lb.name = .text n ∧ lb.scheme = .text settings.loadBalancer.scheme) s := by
    refine ⟨?_, fun u hu => hsurvey.visits hu ▸ haside, fun lb u hu => ⟨hsurvey.visits hu.visits, ?_⟩⟩
    · refine (hsurvey.asks (P := fun q => Gentle q ∧ ¬ Switches q) (fun _ => ⟨trivial, id⟩) fun _ =>
        ⟨trivial, id⟩).each ?_
      exact fun q u hq => harmless_of_retains (preserves_gentle hq.1 u).retains hq.2
    · obtain ⟨names', hnames', hu⟩ := yields_lift_bind.1 hu
      rw [hnames] at hnames'
      cases hnames'
      obtain ⟨tags, -, hu⟩ := yields_lift_bind.1 hu
      obtain ⟨n', hn', hu⟩ := yields_lift_bind.1 hu
      rw [hn] at hn'
      cases hn'
      obtain ⟨subnets, t, -, hu⟩ := yields_bind.1 hu
      obtain ⟨rfl, -⟩ := yields_pure.1 hu
      exact ⟨rfl, rfl⟩
  refine Safe.bind hbuild fun lb u _ hconfig => ?_
  obtain ⟨rfl, hlb, hlbScheme⟩ := hconfig
  refine safe_lift_bind haside fun _ _ => ?_
  refine Safe.bind (safe_ensureLb_aside hlb hlbScheme haside hfs hname hscheme) fun live t ht hlive => ?_
  refine safe_lift_bind ht fun arn harn => ?_
  rw [hlive] at harn
  cases harn
  exact Safe.bind (safe_aside asks_convergeLbAttributes ht) fun _ v hv _ => safe_pure hv hlive

theorem safe_convergeTargetGroups_aside (hd : DistinctBackends i service settings) (h : Aside a s t) :
    (convergeTargetGroups i service settings).Safe (Harmless i service settings) (Aside a s)
      (fun groups u => GroupsReady i service settings groups u) t := by
  have hasks : (convergeTargetGroups i service settings).Asks IsSafe :=
    (groupWork_convergeTargetGroups (P := fun _ _ => True) fun _ _ _ _ _ _ _ => trivial).mono
      fun _ h => h.makes.isSafe
  refine ⟨?_, fun u hu => ?_, fun groups u => yields_convergeTargetGroups hd h.wellFormed⟩
  · refine ((each_convergeTargetGroups h.wellFormed hd).and (hasks.each fun _ _ hq => hq)).mono
      fun q u hq => ?_
    exact harmless_of_retains hq.1 (not_switches_of_isSafe hq.2)
  · obtain ⟨hwf, honly⟩ := always_convergeTargetGroups h.wellFormed u hu
    refine ⟨hwf, honly.loadBalancers ▸ h.lb, fun g hg => ?_, honly.listeners.trans h.listeners⟩
    rcases honly.groups g with hsame | ⟨n, -, ⟨tg, hk, -⟩, -⟩
    · rw [hsame.targetGroups]
      exact h.groups g hg
    · rw [hk]
      rfl

end

/-! ## The listeners -/

/-- Listeners on some ports are still there, and one that is new or modified is on its
port as it was written. -/
structure HandedOver (a : String) (pairs : List (ListenerSpec × List Fields)) (s u : Resources) : Prop where
  kept : ∀ k l p, PortsOf pairs p → s.listeners.get? k = some l → On a p l →
    ∃ l', u.listeners.get? k = some l' ∧ On a p l'
  written : ∀ k l, u.listeners.get? k = some l →
    s.listeners.get? k = some l ∨ ∃ e ∈ pairs, On a (portKey e.1) l ∧ Written e.1 e.2 l

/-- The target groups are ready, and listeners are handed over to them. -/
structure Serving (i : Inputs) (service : Value) (settings : ServiceSettings)
    (groups : TargetGroups) (a : String) (s u : Resources) : Prop where
  wellFormed : u.WellFormed
  ready : GroupsReady i service settings groups u
  lb : (u.loadBalancers.get? (.text a)).isSome
  backed : ∀ k l g, s.listeners.get? k = some l → u.listeners.get? k = some l → ForwardsTo l g →
    (s.targetGroups.get? g).isSome →
    (u.targetGroups.get? g).isSome
  listeners : u.listeners = s.listeners ∨ ∃ specs actions, Asks service settings groups specs actions ∧
    HandedOver a (specs.zip actions) s u

section

variable {i : Inputs} {service : Value} {settings : ServiceSettings} {groups : TargetGroups}
  {a : String} {b : Backend} {pairs : List (ListenerSpec × List Fields)} {e : ListenerSpec × List Fields}
  {specs : List ListenerSpec} {actions : List (List Fields)} {built : List Fields} {key : BackendKey}
  {g : TargetGroup} {s t u : Resources}

theorem HandedOver.refl (a : String) (pairs : List (ListenerSpec × List Fields)) (s : Resources) :
    HandedOver a pairs s s :=
  ⟨fun _ l _ _ hk hon => ⟨l, hk, hon⟩, fun _ _ => .inl⟩

/-- A listener that is ensured is not taken off its port, and no other one is touched. -/
theorem HandedOver.ensured (h : HandedOver a pairs s t) (he : e ∈ pairs) (hensured : Ensured a e.1 e.2 t u) :
    HandedOver a pairs s u where
  kept k l p hp hk hon := by
    obtain ⟨l', hk', hon'⟩ := h.kept k l p hp hk hon
    by_cases hport : On a (portKey e.1) l'
    · obtain ⟨l'', hk'', hon''⟩ := hensured.kept k l' hk' hport
      exact ⟨l'', hk'', hon''.congr (hport.unique hon')⟩
    · refine ⟨l', hensured.onPorts.kept k l' hk' ?_, hon'⟩
      rintro _ rfl
      exact hport
  written k l hk := by
    rcases hensured.written k l hk with hk | hwritten
    · exact h.written k l hk
    · exact .inr ⟨e, he, hwritten⟩

/-- Listeners on other ports are deleted. -/
theorem HandedOver.dropListeners {gone : List Key} {K : Key → Prop} (h : HandedOver a pairs s t)
    (hp : OnPorts a K t (t.dropListeners gone)) (hK : ∀ p, PortsOf pairs p → ∀ p', K p' → (p == p') = false) :
    HandedOver a pairs s (t.dropListeners gone) where
  kept k l p hport hk hon := by
    obtain ⟨l', hk', hon'⟩ := h.kept k l p hport hk hon
    refine ⟨l', hp.kept k l' hk' fun p' hKp hother => ?_, hon'⟩
    have hsame := hon'.unique hother
    rw [hK p hport p' hKp] at hsame
    cases hsame
  written k l hk := h.written k l (Table.get?_of_get?_eraseAll hk)

/-- Wherever it is cut off, `convergeListeners` has not started yet, or hands over. -/
theorem handedOver_convergeListeners (ht : t.WellFormed)
    (hu : (convergeListeners (.text a) service settings groups).Visits t u) :
    u = t ∨ ∃ specs actions, Asks service settings groups specs actions ∧
      HandedOver a (specs.zip actions) t u := by
  rcases visits_convergeListeners ht hu with rfl | ⟨specs, actions, current, hasks, hcurrent, hu⟩
  · exact .inl rfl
  refine .inr ⟨specs, actions, hasks, ?_⟩
  have hensure : (ensureListeners (.text a) current (specs.zip actions)).Always
      (HandedOver a (specs.zip actions) t) t :=
    always_ensureListeners_of ht hasks.distinctPorts (fun e _ => (knows_byPort ht hcurrent).2 (portKey e.1))
      (HandedOver.refl a _ t) fun e he _ _ h hensured => h.ensured he hensured
  rcases hu with hu | ⟨ls, t₁, row, gone, hls, hrow, hgone, rfl⟩
  · exact hensure u hu
  · refine (hensure.yields hls).dropListeners (onPorts_sweep ht hasks hcurrent hls hrow hgone) ?_
    rintro p hp p' hK
    obtain ⟨spec, hspec, rfl⟩ := Asks.portsOf hp
    exact hK spec hspec

theorem Aside.serving (h : Aside a s t) (hready : GroupsReady i service settings groups t) :
    (convergeListeners (.text a) service settings groups).Always
      (Serving i service settings groups a s) t := by
  intro u hu
  obtain ⟨hwf, hkept⟩ := visits_convergeListeners_kept h.wellFormed hu
  obtain ⟨n, ls, hsame⟩ := (always_convergeListeners h.wellFormed u hu).2.same
  refine ⟨hwf, hkept.groupsReady hready, hkept.lb.loadBalancers ▸ h.lb, fun _ _ g _ _ _ hg => ?_, ?_⟩
  · rw [hsame]
    exact h.groups g hg
  · rcases handedOver_convergeListeners h.wellFormed hu with rfl | ⟨specs, actions, hasks, hover⟩
    · exact .inl h.listeners
    · exact .inr ⟨specs, actions, hasks, h.listeners ▸ hover.kept, h.listeners ▸ hover.written⟩

/-- The listener of a backend that is no declared action forwards to its target group. -/
theorem forward_of_buildActions (h : buildActions settings b groups = .ok built)
    (hused : Actions.isUsed b.port = false) (hkey : b.key = .ok key)
    (hg : groups.byBackend.get? key = some g) : built = numbered [forward g.arn] := by
  unfold buildActions at h
  simp [hused, hkey, hg, bind, Except.bind, pure, Except.pure] at h
  exact h.symm

theorem Serving.unbroken (h : Serving i service settings groups a s u)
    (hd : DistinctBackends i service settings) :
    Unbroken i service settings a s u := by
  rcases h.listeners with hsame | ⟨specs, actions, hasks, hover⟩
  · exact unbroken_of_listeners h.lb hsame fun k l g hk => h.backed k l g (hsame ▸ hk) hk
  refine ⟨h.lb, fun k l spec hdeclares hk hon => ?_, h.backed, fun k l hk hne => ?_, fun _ =>
    h.ready.allServed h.wellFormed hd⟩
  · obtain ⟨specs', hspecs', hspec⟩ := hdeclares
    obtain rfl : specs = specs' := Except.ok.inj (hasks.1.symm.trans hspecs')
    obtain ⟨built, he, -⟩ := hasks.exists_built hspec
    exact hover.kept k l _ ⟨_, he, rfl⟩ hk hon
  · obtain ⟨e, he, hon, hwritten⟩ := (hover.written k l hk).resolve_left hne
    obtain ⟨hspec, hbuilt⟩ := hasks.built he
    refine ⟨e.1, ⟨specs, hasks.1, hspec⟩, hon, fun hused => ?_⟩
    obtain ⟨n, key, arn, tt, ts, hbackend, hkey, hg, hserves⟩ :=
      h.ready.serves hd hasks.1 (List.mem_map_of_mem hspec) hused
    refine ⟨n, arn, hbackend, ?_, hserves⟩
    rw [Fields.get, hwritten.actions, forward_of_buildActions hbuilt hused hkey hg]
    rfl

theorem safe_convergeListeners_serving (hd : DistinctBackends i service settings) (h : Aside a s t)
    (hready : GroupsReady i service settings groups t) :
    (convergeListeners (.text a) service settings groups).Safe (Harmless i service settings)
      (Serving i service settings groups a s)
      (fun _ _ => True) t := by
  have hserving : (convergeListeners (.text a) service settings groups).Always
      (Serving i service settings groups a s) t :=
    h.serving hready
  refine ⟨?_, hserving, fun _ _ _ => trivial⟩
  exact ((each_gentle gentle_convergeListeners t).and hserving.each).mono fun q u hq =>
    ⟨hq.1, fun _ => hq.2.ready.allServed hq.2.wellFormed hd⟩

end

/-! ## What is left over -/

section

variable {i : Inputs} {service live : Value} {settings : ServiceSettings} {groups : TargetGroups}
  {a arn : String} {l : Fields} {as : List Value} {ls : List Fields} {gone inUse ks : List Key}
  {k : Key} {s t u : Resources}

theorem same_of_forwardsTo_eq_false (h : forwardsTo (.text arn) as = .ok false)
    {action : Value} (ha : action ∈ as) :
    action.get "TargetGroupArn" ≠ .ok (.text arn) := by
  intro hget
  induction as with
  | nil => cases ha
  | cons action' as ih =>
    obtain ⟨v, hv, h⟩ := bind_eq_ok_iff.1 h
    split at h
    · cases h
    rename_i hnot
    rcases List.mem_cons.1 ha with rfl | ha
    · rw [hget] at hv
      cases hv
      exact hnot ((Value.same_text_iff _ _).2 rfl)
    · exact ih h ha

/-- No listener forwards to a target group that may be deleted. -/
theorem not_forwardsTo_of_checkUnused (h : checkUnused (.text arn) ls = .ok ()) (hl : l ∈ ls) :
    ¬ ForwardsTo l (.text arn) := by
  rintro ⟨as, action, has, ha, hget⟩
  induction ls with
  | nil => cases hl
  | cons l' ls ih =>
    obtain ⟨as', has', h⟩ := bind_eq_ok_iff.1 h
    obtain ⟨found, hfound, h⟩ := bind_eq_ok_iff.1 h
    cases found with
    | true => cases h
    | false =>
      rcases List.mem_cons.1 hl with rfl | hl
      · rw [has] at has'
        cases has'
        exact same_of_forwardsTo_eq_false hfound ha hget
      · exact ih h hl

/-- The target groups of the table are in use. -/
theorem ne_of_mem_byBackend {id : String} {tt : Value} {ts : List Target} (hinUse : groups.arns = .ok inUse)
    (hnot : inUse.contains (.text arn) = false)
    (hmem : (⟨.text id, tt, ts⟩ : TargetGroup) ∈ groups.byBackend.values) :
    Key.text id ≠ .text arn := by
  rintro ⟨⟩
  obtain ⟨k, hk, hkey⟩ := exists_of_mapM hinUse _ hmem
  cases hkey
  rw [List.contains_iff_exists_mem_beq.2 ⟨_, hk, BEq.rfl⟩] at hnot
  cases hnot

theorem sameGroup_dropTg (h : k ≠ .text arn) : SameGroup k u (u.dropTgs [.text arn]) :=
  sameGroup_dropTgs (by simpa using Key.text_beq_eq_false h)

/-- Without a target group that is not in use, no backend loses a target. -/
theorem Serving.retains_dropTg (h : Serving i service settings groups a s u)
    (hd : DistinctBackends i service settings) (hinUse : groups.arns = .ok inUse)
    (hnot : inUse.contains (.text arn) = false) :
    Retains i service settings u (u.dropTgs [.text arn]) := by
  intro n b k hb hn
  obtain ⟨id, tt, ts, hmem, hserves⟩ := h.ready.serves_named hd hb
  obtain rfl := hn.unique h.wellFormed hserves.named
  have hsame : SameGroup (.text id) u (u.dropTgs [.text arn]) :=
    sameGroup_dropTg (ne_of_mem_byBackend hinUse hnot hmem)
  obtain ⟨tg, hk, hname⟩ := hn
  exact ⟨⟨tg, hsame.targetGroups.trans hk, hname⟩, fun _ _ _ _ hx => hx.of_eq hsame.targets⟩

/-- A target group is dropped that is not in use, and to which no listener forwards. -/
theorem Serving.dropTg (h : Serving i service settings groups a s u) (hinUse : groups.arns = .ok inUse)
    (hnot : inUse.contains (.text arn) = false) (hc : checkUnused (.text arn) u.listeners.values = .ok ()) :
    Serving i service settings groups a s (u.dropTgs [.text arn]) where
  wellFormed := h.wellFormed.dropTgs _
  ready := h.ready.congr fun _ _ _ hmem => sameGroup_dropTg (ne_of_mem_byBackend hinUse hnot hmem)
  lb := h.lb
  backed k l g hk hk' hforward hg := by
    have hne : g ≠ .text arn := by
      rintro rfl
      exact not_forwardsTo_of_checkUnused hc (Table.mem_values_iff.2 ⟨k, hk'⟩) hforward
    rw [(sameGroup_dropTg hne).targetGroups]
    exact h.backed k l g hk hk' hforward hg
  listeners := by
    rcases h.listeners with hsame | ⟨specs, actions, hasks, hover⟩
    · exact .inl hsame
    · exact .inr ⟨specs, actions, hasks, hover.kept, hover.written⟩

/-- A target group that is not in use is deleted, or refused. -/
theorem Serving.deleteTg (h : Serving i service settings groups a s u)
    (hd : DistinctBackends i service settings) (hinUse : groups.arns = .ok inUse)
    (hnot : inUse.contains (.text arn) = false) :
    Harmless i service settings (.deleteTargetGroup (.text arn)) u ∧
      Serving i service settings groups a s (u.perform (.deleteTargetGroup (.text arn))).2 := by
  cases hc : checkUnused (.text arn) u.listeners.values with
  | error e =>
    have hperform := perform_deleteTg_refused u arn hc
    refine ⟨harmless_of_retains ?_ id, ?_⟩
    · rw [hperform]
      exact Retains.refl i service settings u
    · rwa [hperform]
  | ok _ =>
    have hperform := perform_deleteTg u arn hc
    refine ⟨harmless_of_retains ?_ id, ?_⟩
    · rw [hperform]
      exact h.retains_dropTg hd hinUse hnot
    · rw [hperform]
      exact h.dropTg hinUse hnot hc

theorem safe_collect_serving (h : Serving i service settings groups a s t)
    (hd : DistinctBackends i service settings) :
    (collect groups).Safe (Harmless i service settings) (Serving i service settings groups a s)
      (fun _ _ => True) t := by
  obtain ⟨wanted, hsel⟩ := h.ready.selector
  obtain ⟨owned, howned, hkeys⟩ := tagged_eq_ok t wanted
  have hread : (answer (.resourcesTagged (.object wanted) (.text targetGroupType))).Safe
      (Harmless i service settings)
      (Serving i service settings groups a s) (fun found u => u = t ∧ found = owned) t := by
    have hharmless : Harmless i service settings
        (.resourcesTagged (.object wanted) (.text targetGroupType)) t :=
      harmless_of_retains (Retains.refl i service settings t) id
    refine safe_answer hharmless h h fun found hfound => ⟨rfl, ?_⟩
    rw [perform_resourcesTagged, howned] at hfound
    exact (Except.ok.inj hfound).symm
  unfold collect
  rw [hsel]
  refine safe_lift_bind h fun inUse hinUse => Safe.bind hread fun found u _ hfound => ?_
  obtain ⟨rfl, rfl⟩ := hfound
  refine safe_lift_bind h fun row hrow => ?_
  have hasks : (deleteTargetGroups (row.filter fun arn => !inUse.contains arn)).Asks
      (fun q => ∃ arn, inUse.contains (.text arn) = false ∧ q = .deleteTargetGroup (.text arn)) := by
    refine asks_deleteTargetGroups fun k hk => ?_
    obtain ⟨hmem, hunused⟩ := List.mem_filter.1 hk
    have hthere : k ∈ u.owned wanted := hkeys ▸ (sortBy_perm hrow).mem_iff.1 hmem
    obtain ⟨arn, rfl⟩ := h.wellFormed.ownArns.text_of_mem_owned hthere
    exact ⟨arn, by simpa using hunused, rfl⟩
  refine hasks.safe ?_ h
  rintro q v ⟨arn, hnot, rfl⟩ hv
  exact hv.deleteTg hd hinUse hnot

/-! ## A reconcile -/

/-- Where the load balancer of a Service stands, every request of a reconcile is harmless,
and all stays unbroken. -/
theorem safe_convergeService_unbroken (hs : s.WellFormed) (hsettings : settingsOf i service = .ok settings)
    (hd : DistinctBackends i service settings) (h : Standing i service settings a s) :
    (convergeService i service).Safe (Harmless i service settings) (Unbroken i service settings a s)
      (fun _ _ => True) s := by
  obtain ⟨key, hkey, hstore⟩ := bind_eq_ok_iff.1 hsettings
  have hlb := safe_convergeLb_aside hs h
  have hself : Unbroken i service settings a s s := hlb.always.start.unbroken
  rw [convergeService_eq]
  refine safe_lift_bind hself fun key' hkey' => safe_lift_bind hself fun settings' hsettings' => ?_
  rw [hkey] at hkey'
  cases hkey'
  rw [hstore] at hsettings'
  cases hsettings'
  have hunbroken : ∀ groups u, Serving i service settings groups a s u → Unbroken i service settings a s u :=
    fun _ _ hu => hu.unbroken hd
  refine Safe.bind (hlb.mono (fun _ hu => hu.unbroken) fun live t ht hlive => And.intro ht hlive)
    fun live t _ hlive => ?_
  obtain ⟨ht, hlive⟩ := hlive
  refine safe_lift_bind ht.unbroken fun arn harn => ?_
  rw [hlive] at harn
  cases harn
  refine Safe.bind ((safe_convergeTargetGroups_aside hd ht).mono (fun _ hu => hu.unbroken)
    fun groups u hu hready => And.intro hu hready) fun groups u _ hready => ?_
  obtain ⟨hu, hready⟩ := hready
  refine Safe.bind ((safe_convergeListeners_serving hd hu hready).mono (hunbroken groups) fun _ v hv _ => hv)
    fun _ v _ hv => ?_
  refine Safe.bind ((safe_collect_serving hv hd).mono (hunbroken groups) fun _ _ _ h => h) fun _ w hw _ => ?_
  exact safe_lift_bind hw fun _ _ => safe_pure hw trivial

/-- A reconcile makes before it breaks. Where the load balancer of the Service stands, every state
between two requests is unbroken, and so is what is left behind a gate that refuses requests. No
request takes a target from a backend that resolves to it, and listeners are created and modified only
when all backends are served. -/
theorem convergeService_unbroken (hs : s.WellFormed) (hsettings : settingsOf i service = .ok settings)
    (hd : DistinctNames i service) (h : Standing i service settings a s) :
    (∀ u, (convergeService i service).Visits s u → Unbroken i service settings a s u) ∧
      (convergeService i service).Each (Harmless i service settings) s ∧
        ∀ {σ : Type} (g : Gate σ) (c : σ) (rs : List Record), Unbroken i service settings a s
          ((convergeService i service).run (Memory.cloud g) (c, ⟨s, rs⟩)).2.2.resources := by
  have hsafe := safe_convergeService_unbroken hs hsettings (hd settings hsettings) h
  exact ⟨hsafe.always, hsafe.each, fun g c rs => hsafe.always _
    ((strict_convergeService i service).visits_run g c ⟨s, rs⟩)⟩

end

/-! ## A sample -/

/-- A Service with one port for some protocols. -/
def dnsService (protocols : List String) : Value :=
  .object [("metadata", .object [("namespace", .text "default"), ("name", .text "dns"),
      ("annotations", .object [("example.com/subnets", .text "subnet-a")])]),
    ("spec", .object [("ports", .list (protocols.map fun p =>
      .object [("name", .text p), ("port", .int 53), ("nodePort", .int 31053), ("protocol", .text p)]))])]

/-- The Service and a node that receives its traffic. -/
def dnsInputs (protocols : List String) : Inputs :=
  { sampleInputs with
    store := { sampleInputs.store with
      services := .ofList [(.text "default/dns", dnsService protocols)] } }

/-- A reconcile of the Service. -/
def dnsReconciled (protocols : List String) (s : Resources) : Except Error LoadBalancer × Resources :=
  let out := (convergeService (dnsInputs protocols) (dnsService protocols)).run
    (Memory.cloud Gate.free) ((), ⟨s, []⟩)
  (out.1, out.2.2.resources)

/-- The Service with UDP only. -/
def udpOnly : Resources := (dnsReconciled ["UDP"] {}).2

theorem dns_distinctNames {protocols : List String} (h : protocols = ["UDP"] ∨ protocols = ["TCP", "UDP"]) :
    DistinctNames (dnsInputs protocols) (dnsService protocols) := by
  have hnodup : (groupNames (dnsInputs protocols) (dnsService protocols)).toOption.any (·.Nodup) = true := by
    rcases h with rfl | rfl <;> set_option maxRecDepth 10000 in decide +kernel
  cases hn : groupNames (dnsInputs protocols) (dnsService protocols) with
  | error e => simp [hn, Except.toOption] at hnodup
  | ok ns => exact distinctNames_of_nodup hn (by simpa [hn, Except.toOption] using hnodup)

theorem wellFormed_udpOnly : udpOnly.WellFormed := by
  have hok : (dnsReconciled ["UDP"] {}).1.isOk = true := by
    set_option maxRecDepth 100000 in decide +kernel
  match h : (convergeService (dnsInputs ["UDP"]) (dnsService ["UDP"])).run
    (Memory.cloud Gate.free) ((), ⟨{}, []⟩) with
  | (.ok lb, ((), m)) =>
    obtain ⟨rs, -, hends⟩ := run_free_eq_ok_iff.1 h
    obtain ⟨-, -, -, hwf, -⟩ :=
      yields_convergeService wellFormed_empty (fun _ hv => (List.not_mem_nil hv).elim)
      (dns_distinctNames (.inl rfl)) hends.yields
    rwa [udpOnly, dnsReconciled, h]
  | (.error e, _) =>
    simp [dnsReconciled, h, Except.isOk, Except.toBool] at hok

/-- The port is made one for TCP as well: its listener is switched to a target group of its own. -/
theorem dns_unbroken :
    ∃ settings a k l l', udpOnly.listeners.get? k = some l ∧ Fields.get l "Protocol" = .text "UDP" ∧
    (dnsReconciled ["TCP", "UDP"] udpOnly).2.listeners.get? k = some l' ∧
    Fields.get l' "Protocol" = .text "TCP_UDP" ∧
      Unbroken (dnsInputs ["TCP", "UDP"]) (dnsService ["TCP", "UDP"]) settings a udpOnly
        (dnsReconciled ["TCP", "UDP"] udpOnly).2 := by
  let n := Identity.lbName "prefix" "default" "dns"
  have hcheck : (settingsOf (dnsInputs ["TCP", "UDP"]) (dnsService ["TCP", "UDP"])).toOption.any
        (·.loadBalancer.scheme == "internal") = true ∧
      (udpOnly.loadBalancers.get? (.text (lbArn n 1))).any
        (fun fs => (Fields.get fs "LoadBalancerName").same (.text n) &&
        (Fields.get fs "Scheme").same (.text "internal")) = true ∧
      (udpOnly.listeners.get? (.text (listenerArn 3))).any
        (fun l => (Fields.get l "Protocol").same (.text "UDP")) = true ∧
      ((dnsReconciled ["TCP", "UDP"] udpOnly).2.listeners.get? (.text (listenerArn 3))).any
        (fun l => (Fields.get l "Protocol").same (.text "TCP_UDP")) = true := by
    set_option maxRecDepth 100000 in decide +kernel
  obtain ⟨hscheme, hlb, hl, hl'⟩ := hcheck
  obtain ⟨fs, hfs, hnamed⟩ := (Option.any_eq_true _ _).1 hlb
  obtain ⟨hname, hinternal⟩ := Bool.and_eq_true_iff.1 hnamed
  obtain ⟨l, hl, hudp⟩ := (Option.any_eq_true _ _).1 hl
  obtain ⟨l', hl', hboth⟩ := (Option.any_eq_true _ _).1 hl'
  cases hsettings : settingsOf (dnsInputs ["TCP", "UDP"]) (dnsService ["TCP", "UDP"]) with
  | error e => simp [hsettings, Except.toOption] at hscheme
  | ok settings =>
    have hscheme : settings.loadBalancer.scheme = "internal" := by
      simpa [hsettings, Except.toOption] using hscheme
    have hstanding : Standing (dnsInputs ["TCP", "UDP"]) (dnsService ["TCP", "UDP"]) settings
        (lbArn n 1) udpOnly := by
      refine ⟨.text "default", .text "dns", n, fs, rfl, rfl, hfs, (Value.same_text_iff _ _).1 hname, ?_⟩
      rw [hscheme]
      exact (Value.same_text_iff _ _).1 hinternal
    obtain ⟨-, -, hunbroken⟩ :=
      convergeService_unbroken wellFormed_udpOnly hsettings (dns_distinctNames (.inr rfl)) hstanding
    exact ⟨settings, _, _, l, l', hl, (Value.same_text_iff _ _).1 hudp, hl',
      (Value.same_text_iff _ _).1 hboth, hunbroken Gate.free () []⟩

end Converge

end Balancer
