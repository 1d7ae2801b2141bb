import Balancer.Proofs.Converge.TargetGroup

/-!
# Converging the target groups of a Service

* `OnlyGroups N s u` : of what belongs to target groups, only what belongs to those of some names differs;
* `BackendsReady` : the target groups of backends are ready, one after the other; `convergeBackends` brings
  that about (`yields_convergeBackends`), rests where it holds (`rests_convergeBackends`) and can be done
  again from any state that it visits (`resumes_convergeBackends`), if the names of the target groups are
  distinct (`DistinctGroups`);
* `leftover` : the selected target groups that are not in use. `collect` deletes them (`yields_collect`), in
  any number of runs (`resumes_collect`).
-/

namespace Balancer

set_option autoImplicit false

namespace Converge

open Cluster Routing

/-! ## Changes at the target groups of some names -/

/-- Only what belongs to the target groups of some names differs. -/
structure OnlyGroups (N : String → Prop) (s u : Resources) : Prop where
  subnets : u.subnets = s.subnets
  subnetTags : u.subnetTags = s.subnetTags
  loadBalancers : u.loadBalancers = s.loadBalancers
  lbAttributes : u.lbAttributes = s.lbAttributes
  listeners : u.listeners = s.listeners
  groups : ∀ k, SameGroup k s u ∨ ∃ n, N n ∧ GroupNamed n k u ∧
    ∀ tg, s.targetGroups.get? k = some tg → Fields.get tg "TargetGroupName" = .text n

namespace OnlyGroups

variable {N N' : String → Prop} {s t u : Resources}

theorem refl (N : String → Prop) (s : Resources) : OnlyGroups N s s :=
  ⟨rfl, rfl, rfl, rfl, rfl, fun k => .inl (SameGroup.refl k s)⟩

theorem mono (h : OnlyGroups N s u) (hN : ∀ n, N n → N' n) : OnlyGroups N' s u :=
  { h with groups := fun k => (h.groups k).imp_right fun ⟨n, hn, hrest⟩ => ⟨n, hN n hn, hrest⟩ }

theorem trans (h : OnlyGroups N s t) (h' : OnlyGroups N t u) : OnlyGroups N s u where
  subnets := h'.subnets.trans h.subnets
  subnetTags := h'.subnetTags.trans h.subnetTags
  loadBalancers := h'.loadBalancers.trans h.loadBalancers
  lbAttributes := h'.lbAttributes.trans h.lbAttributes
  listeners := h'.listeners.trans h.listeners
  groups k := by
    rcases h.groups k with hsame | ⟨n, hn, ⟨tg, hk, hname⟩, hbefore⟩
    · rcases h'.groups k with hsame' | ⟨n, hn, hnamed, hbefore⟩
      · exact .inl (hsame.trans hsame')
      · exact .inr ⟨n, hn, hnamed, fun tg hk => hbefore tg (hsame.targetGroups ▸ hk)⟩
    · rcases h'.groups k with hsame' | ⟨n', -, hnamed, hbefore'⟩
      · exact .inr ⟨n, hn, ⟨tg, hsame'.targetGroups ▸ hk, hname⟩, hbefore⟩
      · have hnn := hbefore' tg hk
        rw [hname] at hnn
        cases hnn
        exact .inr ⟨n, hn, hnamed, hbefore⟩

theorem of_onlyAt {n arn : String} (h : OnlyAt (.text arn) s u) (hn : N n)
    (hnamed : GroupNamed n (.text arn) u)
    (hbefore : ∀ tg, s.targetGroups.get? (.text arn) = some tg → Fields.get tg "TargetGroupName" = .text n) :
    OnlyGroups N s u where
  subnets := h.subnets
  subnetTags := h.subnetTags
  loadBalancers := h.loadBalancers
  lbAttributes := h.lbAttributes
  listeners := h.listeners
  groups k := by
    by_cases hk : k = .text arn
    · subst hk
      exact .inr ⟨n, hn, hnamed, hbefore⟩
    · refine .inl (SameGroup.of_onlyAt h ?_)
      rw [BEq.comm]
      exact Key.text_beq_eq_false hk

/-- What belongs to a target group of another name is the same. -/
theorem sameGroup {n : String} {k : Key} (h : OnlyGroups N s u) (hn : ¬ N n) (hnamed : GroupNamed n k s) :
    SameGroup k s u := by
  obtain ⟨tg, hk, hname⟩ := hnamed
  refine (h.groups k).resolve_right ?_
  rintro ⟨n', hn', -, hbefore⟩
  have hnn := hbefore tg hk
  rw [hname] at hnn
  cases hnn
  exact hn hn'

/-- What belongs to a load balancer is the same. -/
theorem tags_eq {k : Key} {lb : Fields} (h : OnlyGroups N s u) (hu : u.WellFormed)
    (hk : s.loadBalancers.get? k = some lb) :
    u.tags.get? k = s.tags.get? k := by
  rcases h.groups k with hsame | ⟨n, -, ⟨tg, htg, -⟩, -⟩
  · exact hsame.tags
  · rw [← h.loadBalancers] at hk
    exact (hu.disjoint hk htg).elim

end OnlyGroups

/-! ## The target groups of backends -/

/-- The names of the target groups of backends. -/
def GroupsOf (i : Inputs) (service : Value) (settings : ServiceSettings) (bs : List Backend)
    (n : String) : Prop :=
  ∃ b ∈ bs, Actions.isUsed b.port = false ∧ groupName i service settings b = .ok n

/-- The names of the target groups of a Service. -/
def ServiceGroups (i : Inputs) (service : Value) (settings : ServiceSettings) (n : String) : Prop :=
  ∃ specs, listenerSpecs service settings = .ok specs ∧ GroupsOf i service settings (specs.map (·.backend)) n

/-- The target groups of backends have distinct names. -/
def DistinctGroups (i : Inputs) (service : Value) (settings : ServiceSettings) (bs : List Backend) : Prop :=
  bs.Pairwise fun b b' => Actions.isUsed b.port = false → Actions.isUsed b'.port = false →
    ∀ n, groupName i service settings b = .ok n → groupName i service settings b' ≠ .ok n

/-- The backends of a Service have target groups of distinct names. -/
def DistinctBackends (i : Inputs) (service : Value) (settings : ServiceSettings) : Prop :=
  ∀ specs, listenerSpecs service settings = .ok specs →
    DistinctGroups i service settings (specs.map (·.backend))

/-- The target groups of backends are ready, and with some others they are those of a table. -/
inductive BackendsReady (i : Inputs) (service : Value) (settings : ServiceSettings) (u : Resources) :
    Table BackendKey TargetGroup → List Backend → Table BackendKey TargetGroup → Prop
  | nil (there : Table BackendKey TargetGroup) : BackendsReady i service settings u there [] there
  | action {there groups : Table BackendKey TargetGroup} {b : Backend} {bs : List Backend}
      (hb : Actions.isUsed b.port = true) (h : BackendsReady i service settings u there bs groups) :
      BackendsReady i service settings u there (b :: bs) groups
  | found {there groups : Table BackendKey TargetGroup} {b : Backend} {bs : List Backend} {key : BackendKey}
      (hb : Actions.isUsed b.port = false) (hkey : b.key = .ok key) (hthere : there.contains key = true)
      (h : BackendsReady i service settings u there bs groups) :
      BackendsReady i service settings u there (b :: bs) groups
  | group {there groups : Table BackendKey TargetGroup} {b : Backend} {bs : List Backend} {key : BackendKey}
      {plan : GroupPlan} {arn : String} {ts : List Target} {wanted : List (Key × Key)}
      (hb : Actions.isUsed b.port = false) (hkey : b.key = .ok key) (hthere : there.contains key = false)
      (hplan : planGroup i service settings b = .ok plan)
      (hts : resolveTargets i.store service b settings.targetGroup.targetType = .ok ts)
      (hw : targetKeys (ts.map Target.toValue) = .ok wanted)
      (hready : GroupReady plan (textFields settings.targetGroup.attributes) wanted arn u)
      (h : BackendsReady i service settings u
        (there.insert key ⟨.text arn, settings.targetGroup.targetType, ts⟩) bs groups) :
      BackendsReady i service settings u there (b :: bs) groups

section

variable {i : Inputs} {service : Value} {settings : ServiceSettings} {b : Backend} {bs : List Backend}
  {there groups : Table BackendKey TargetGroup} {s t u : Resources}

theorem GroupsOf.cons {n : String} (h : GroupsOf i service settings bs n) :
    GroupsOf i service settings (b :: bs) n := by
  obtain ⟨b', hb', h⟩ := h
  exact ⟨b', by simp [hb'], h⟩

theorem not_groupsOf {plan : GroupPlan} (hd : DistinctGroups i service settings (b :: bs))
    (hb : Actions.isUsed b.port = false) (hplan : planGroup i service settings b = .ok plan) :
    ¬ GroupsOf i service settings bs plan.name := by
  rintro ⟨b', hb', hused, hn⟩
  exact (List.pairwise_cons.1 hd).1 b' hb' hb hused plan.name (planGroup_eq_ok hplan).1 hn

theorem GroupReady.named {plan : GroupPlan} {attributes : Fields} {wanted : List (Key × Key)} {arn : String}
    (h : GroupReady plan attributes wanted arn u) : GroupNamed plan.name (.text arn) u := by
  obtain ⟨tg, hk, hn, -⟩ := h.there
  exact ⟨tg, hk, hn⟩

/-- What there was in the table stays in it. -/
theorem BackendsReady.get?_of_there {key : BackendKey} {g : TargetGroup}
    (h : BackendsReady i service settings u there bs groups) (hg : there.get? key = some g) :
    groups.get? key = some g := by
  induction h with
  | nil => exact hg
  | action hb h ih => exact ih hg
  | found hb hkey hthere h ih => exact ih hg
  | @group there groups b bs key' plan arn ts wanted hb hkey hthere hplan hts hw hready h ih =>
    refine ih ?_
    rw [Table.get?_insert_of_ne]
    · exact hg
    · refine Bool.eq_false_iff.2 fun hkk => ?_
      rw [← Table.get?_congr there hkk] at hg
      rw [Table.contains_iff.2 ⟨g, hg⟩] at hthere
      cases hthere

/-- The target group of a backend is ready. -/
def BackendReady (i : Inputs) (service : Value) (settings : ServiceSettings) (b : Backend) (g : TargetGroup)
    (u : Resources) : Prop :=
  ∃ plan arn ts wanted, planGroup i service settings b = .ok plan ∧
    resolveTargets i.store service b settings.targetGroup.targetType = .ok ts ∧
    targetKeys (ts.map Target.toValue) = .ok wanted ∧ g = ⟨.text arn, settings.targetGroup.targetType, ts⟩ ∧
    GroupReady plan (textFields settings.targetGroup.attributes) wanted arn u

/-- A target group of the table was in it before, or is that of a backend. -/
theorem BackendsReady.origin {key : BackendKey} {g : TargetGroup}
    (h : BackendsReady i service settings u there bs groups) (hg : groups.get? key = some g) :
    there.get? key = some g ∨ ∃ b ∈ bs, Actions.isUsed b.port = false ∧
      BackendReady i service settings b g u := by
  induction h with
  | nil => exact .inl hg
  | action hb h ih => exact (ih hg).imp_right fun ⟨b, hmem, hrest⟩ => ⟨b, by simp [hmem], hrest⟩
  | found hb hkey hthere h ih => exact (ih hg).imp_right fun ⟨b, hmem, hrest⟩ => ⟨b, by simp [hmem], hrest⟩
  | group hb hkey hthere hplan hts hw hready h ih =>
    rcases ih hg with hg | ⟨b, hmem, hrest⟩
    · rcases Table.get?_insert_eq_some_iff.1 hg with ⟨-, rfl⟩ | ⟨-, hg⟩
      · exact .inr ⟨_, by simp, hb, _, _, _, _, hplan, hts, hw, rfl, hready⟩
      · exact .inl hg
    · exact .inr ⟨b, by simp [hmem], hrest⟩

/-- A backend that has a name for its target group is the only one with its key. -/
theorem eq_of_groupName {b' : Backend} {key key' : BackendKey} {n : String}
    (hn : groupName i service settings b = .ok n) (hkey : b.key = .ok key) (hkey' : b'.key = .ok key')
    (h : (key == key') = true) : b' = b := by
  obtain ⟨⟨ns, name⟩, -, hn⟩ := bind_eq_ok_iff.1 hn
  obtain ⟨stem, -, hn⟩ := bind_eq_ok_iff.1 hn
  obtain ⟨nsText, -, hn⟩ := bind_eq_ok_iff.1 hn
  obtain ⟨nameText, -, hn⟩ := bind_eq_ok_iff.1 hn
  obtain ⟨service, hservice, hn⟩ := bind_eq_ok_iff.1 hn
  obtain ⟨port, hport, hn⟩ := bind_eq_ok_iff.1 hn
  obtain ⟨protocol, hprotocol, -⟩ := bind_eq_ok_iff.1 hn
  obtain ⟨k₁, hk₁, hkey⟩ := bind_eq_ok_iff.1 hkey
  obtain ⟨k₂, hk₂, hkey⟩ := bind_eq_ok_iff.1 hkey
  obtain ⟨k₃, hk₃, hkey⟩ := bind_eq_ok_iff.1 hkey
  obtain ⟨k₁', hk₁', hkey'⟩ := bind_eq_ok_iff.1 hkey'
  obtain ⟨k₂', hk₂', hkey'⟩ := bind_eq_ok_iff.1 hkey'
  obtain ⟨k₃', hk₃', hkey'⟩ := bind_eq_ok_iff.1 hkey'
  cases hkey
  cases hkey'
  have heq : ∀ {v v' : Value} {k k' : Key} {s : String}, v = .text s → v.key = .ok k → v'.key = .ok k' →
      (k == k') = true → v' = v := by
    rintro v v' k k' s rfl hk hk' hkk
    cases hk
    obtain rfl := Key.eq_text_of_beq (BEq.symm hkk)
    exact Value.eq_toValue_of_key hk'
  obtain ⟨⟨h₁, h₂⟩, h₃⟩ : ((k₁ == k₁') = true ∧ (k₂ == k₂') = true) ∧ (k₃ == k₃') = true := by
    simpa [BEq.beq] using h
  cases b
  cases b'
  simp only [Backend.mk.injEq]
  exact ⟨heq (Value.eq_text_of_textFor hservice) hk₁ hk₁' h₁,
    heq (Value.eq_text_of_textFor hport) hk₂ hk₂' h₂, heq (Value.eq_text_of_textFor hprotocol) hk₃ hk₃' h₃⟩

/-- Every backend has its target group, if those that were there before are of other names. -/
theorem BackendsReady.ready (h : BackendsReady i service settings u there bs groups)
    (hd : DistinctGroups i service settings bs)
    (hthere : ∀ key, there.contains key = true → ∃ b₀ key₀ n, b₀.key = .ok key₀ ∧ (key₀ == key) = true ∧
      groupName i service settings b₀ = .ok n ∧ ¬ GroupsOf i service settings bs n) :
    ∀ b ∈ bs, Actions.isUsed b.port = false →
      ∃ key g, b.key = .ok key ∧ groups.get? key = some g ∧ BackendReady i service settings b g u := by
  have hweaken : ∀ {b : Backend} {bs : List Backend} {n : String}, ¬ GroupsOf i service settings (b :: bs) n →
      ¬ GroupsOf i service settings bs n := fun hn h => hn h.cons
  induction h with
  | nil => simp
  | action hb h ih =>
    refine List.forall_mem_cons.2 ⟨fun hb' => absurd hb (by simp [hb']), ?_⟩
    refine ih (List.pairwise_cons.1 hd).2 fun key hc => ?_
    obtain ⟨b₀, key₀, n, hkey₀, hkk, hn, hno⟩ := hthere key hc
    exact ⟨b₀, key₀, n, hkey₀, hkk, hn, hweaken hno⟩
  | found hb hkey hc h ih =>
    obtain ⟨b₀, key₀, n, hkey₀, hkk, hn, hno⟩ := hthere _ hc
    obtain rfl := eq_of_groupName hn hkey₀ hkey hkk
    exact absurd ⟨_, by simp, hb, hn⟩ hno
  | @group there groups b bs key plan arn ts wanted hb hkey hc hplan hts hw hready h ih =>
    refine List.forall_mem_cons.2 ⟨fun _ => ?_, ?_⟩
    · exact ⟨_, _, hkey, h.get?_of_there (Table.get?_insert_self _ _ _), plan, arn, ts, wanted,
        hplan, hts, hw, rfl, hready⟩
    · refine ih (List.pairwise_cons.1 hd).2 fun key' hc' => ?_
      obtain ⟨g, hg⟩ := Table.contains_iff.1 hc'
      rcases Table.get?_insert_eq_some_iff.1 hg with ⟨hkk, -⟩ | ⟨-, hg⟩
      · exact ⟨b, key, plan.name, hkey, hkk, (planGroup_eq_ok hplan).1, not_groupsOf hd hb hplan⟩
      · obtain ⟨b₀, key₀, n, hkey₀, hkk, hn, hno⟩ := hthere key' (Table.contains_iff.2 ⟨g, hg⟩)
        exact ⟨b₀, key₀, n, hkey₀, hkk, hn, hweaken hno⟩

/-- Changes outside the target groups of the table leave them ready. -/
theorem BackendsReady.congr (h : BackendsReady i service settings s there bs groups)
    (hsame : ∀ arn tt ts, (⟨.text arn, tt, ts⟩ : TargetGroup) ∈ groups.values → SameGroup (.text arn) s u) :
    BackendsReady i service settings u there bs groups := by
  induction h with
  | nil => exact .nil _
  | action hb h ih => exact .action hb (ih hsame)
  | found hb hkey hthere h ih => exact .found hb hkey hthere (ih hsame)
  | group hb hkey hthere hplan hts hw hready h ih =>
    have hmem := Table.mem_values_iff.2 ⟨_, h.get?_of_there (Table.get?_insert_self _ _ _)⟩
    exact .group hb hkey hthere hplan hts hw (hready.congr (hsame _ _ _ hmem)) (ih hsame)

/-- What a run of `convergeBackends` leaves alone, wherever it is cut off. -/
theorem always_convergeBackends (hs : s.WellFormed) :
    (convergeBackends i service settings there bs).Always
      (fun u => u.WellFormed ∧ OnlyGroups (GroupsOf i service settings bs) s u) s := by
  induction bs generalizing s there with
  | nil =>
    rintro u hu
    rw [Program.visits_pure.1 hu]
    exact ⟨hs, OnlyGroups.refl _ s⟩
  | cons b bs ih =>
    have hskip : (convergeBackends i service settings there bs).Always
        (fun u => u.WellFormed ∧ OnlyGroups (GroupsOf i service settings (b :: bs)) s u) s :=
      (ih hs).mono fun u ⟨hu, h⟩ => ⟨hu, h.mono fun _ hn => hn.cons⟩
    unfold convergeBackends
    split
    · exact hskip
    rename_i hb
    refine Program.Always.lift_bind ⟨hs, OnlyGroups.refl _ s⟩ fun key hkey => ?_
    split
    · exact hskip
    have hone : ∀ u, (convergeTargetGroup i service settings b).Visits s u →
        u.WellFormed ∧ OnlyGroups (GroupsOf i service settings (b :: bs)) s u := by
      intro u hu
      obtain ⟨hwf, rfl | ⟨n, arn, hn, hat, hnamed, hbefore⟩⟩ := visits_convergeTargetGroup hs hu
      · exact ⟨hs, OnlyGroups.refl _ u⟩
      · exact ⟨hwf, .of_onlyAt hat ⟨b, by simp, by simpa using hb, hn⟩ hnamed hbefore⟩
    refine Program.Always.bind hone fun g t ht u hu => ?_
    obtain ⟨ht, hst⟩ := hone t ht.visits
    obtain ⟨hu, htu⟩ := ih ht u hu
    exact ⟨hu, hst.trans (htu.mono fun _ hn => hn.cons)⟩

/-- A target group stays ready while those of later backends are converged. -/
theorem GroupReady.of_visits {plan : GroupPlan} {attributes : Fields}
    {wanted : List (Key × Key)} {arn : String} (h : GroupReady plan attributes wanted arn t)
    (hd : DistinctGroups i service settings (b :: bs)) (hb : Actions.isUsed b.port = false)
    (hplan : planGroup i service settings b = .ok plan) (ht : t.WellFormed)
    (hu : (convergeBackends i service settings there bs).Visits t u) :
    GroupReady plan attributes wanted arn u :=
  h.congr ((always_convergeBackends ht u hu).2.sameGroup (not_groupsOf hd hb hplan) h.named)

/-- What a run of `convergeBackends` brings about. -/
theorem yields_convergeBackends (hd : DistinctGroups i service settings bs) (hs : s.WellFormed)
    (h : (convergeBackends i service settings there bs).Yields s groups t) :
    BackendsReady i service settings t there bs groups := by
  induction bs generalizing s there with
  | nil =>
    obtain ⟨rfl, rfl⟩ := Program.yields_pure.1 h
    exact .nil groups
  | cons b bs ih =>
    have hd' := (List.pairwise_cons.1 hd).2
    unfold convergeBackends at h
    split at h
    · rename_i hb
      exact .action hb (ih hd' hs h)
    rename_i hb
    have hb := Bool.eq_false_iff.2 hb
    obtain ⟨key, hkey, h⟩ := Program.yields_lift_bind.1 h
    split at h
    · rename_i hthere
      exact .found hb hkey hthere (ih hd' hs h)
    rename_i hthere
    obtain ⟨g, t₁, h₁, h⟩ := Program.yields_bind.1 h
    obtain ⟨plan, arn, ts, wanted, hplan, hts, hw, rfl, hready⟩ := yields_convergeTargetGroup hs h₁
    have ht₁ := (visits_convergeTargetGroup hs h₁.visits).1
    exact .group hb hkey (Bool.eq_false_iff.2 hthere) hplan hts hw (hready.of_visits hd hb hplan ht₁ h.visits)
      (ih hd' ht₁ h)

/-- The plans of backends equal themselves. -/
def DefinitePlans (i : Inputs) (service : Value) (settings : ServiceSettings) : Prop :=
  ∀ b plan, planGroup i service settings b = .ok plan → plan.Definite

/-- Where all target groups are ready, nothing more is done to them. -/
theorem rests_convergeBackends (hu : u.WellFormed) (h : BackendsReady i service settings u there bs groups) :
    (convergeBackends i service settings there bs).Rests (DefinitePlans i service settings) id u groups := by
  induction h with
  | nil => exact Program.Rests.of_ends (Program.ends_pure.2 ⟨rfl, rfl, rfl⟩)
  | action hb h ih =>
    unfold convergeBackends
    rw [if_pos hb]
    exact ih
  | found hb hkey hthere h ih =>
    unfold convergeBackends
    rw [if_neg (by simp [hb])]
    refine Program.Rests.lift_bind hkey ?_
    rw [if_pos hthere]
    exact ih
  | group hb hkey hthere hplan hts hw hready h ih =>
    unfold convergeBackends
    rw [if_neg (by simp [hb])]
    refine Program.Rests.lift_bind hkey ?_
    rw [if_neg (by simp [hthere])]
    refine Program.Rests.bind (v := id) ((rests_convergeTargetGroup hu hplan hts hw hready).mono ?_) ?_
    · exact fun hq => hq _ _ hplan
    · rintro _ rfl
      exact ih

/-- Cut off anywhere, `convergeBackends` can be done again. -/
theorem resumes_convergeBackends (hd : DistinctGroups i service settings bs) (hs : s.WellFormed) :
    (convergeBackends i service settings there bs).Resumes id s := by
  induction bs generalizing s there with
  | nil => exact Program.resumes_pure _ _
  | cons b bs ih =>
    have hd' := (List.pairwise_cons.1 hd).2
    unfold convergeBackends
    split
    · exact ih hd' hs
    rename_i hb
    refine Program.Resumes.lift_bind fun key _ => ?_
    split
    · exact ih hd' hs
    have hwf : ∀ {g t}, (convergeTargetGroup i service settings b).Yields s g t → t.WellFormed := fun h =>
      (visits_convergeTargetGroup hs h.visits).1
    refine Program.Resumes.bind (resumes_convergeTargetGroup hs) (fun g g' h => by rw [show g' = g from h])
      (fun _ _ ht => ih hd' (hwf ht)) fun g t u ht hu => ?_
    obtain ⟨plan, arn, ts, wanted, hplan, hts, hw, rfl, hready⟩ := yields_convergeTargetGroup hs ht
    have hready := hready.of_visits hd (Bool.eq_false_iff.2 hb) hplan (hwf ht) hu
    exact (rests_convergeTargetGroup (always_convergeBackends (hwf ht) u hu).1 hplan hts hw hready).yields

end

/-! ## The target groups of a Service -/

/-- The target groups of a Service are ready. -/
def GroupsReady (i : Inputs) (service : Value) (settings : ServiceSettings) (groups : TargetGroups)
    (u : Resources) : Prop :=
  ∃ ns name specs selector, names service = .ok (ns, name) ∧ listenerSpecs service settings = .ok specs ∧
    BackendsReady i service settings u ∅ (specs.map (·.backend)) groups.byBackend ∧
    i.identity.selector ns name = .ok selector ∧ groups.selector = selector.toObject

section

variable {i : Inputs} {service : Value} {settings : ServiceSettings} {specs : List ListenerSpec}
  {groups : TargetGroups} {s t u : Resources}

theorem GroupsReady.congr (h : GroupsReady i service settings groups s)
    (hsame : ∀ arn tt ts, (⟨.text arn, tt, ts⟩ : TargetGroup) ∈ groups.byBackend.values →
      SameGroup (.text arn) s u) :
    GroupsReady i service settings groups u := by
  obtain ⟨ns, name, specs, selector, hn, hspecs, hready, hsel⟩ := h
  exact ⟨ns, name, specs, selector, hn, hspecs, hready.congr hsame, hsel⟩

theorem always_convergeTargetGroups (hs : s.WellFormed) : (convergeTargetGroups i service settings).Always
    (fun u => u.WellFormed ∧ OnlyGroups (ServiceGroups i service settings) s u) s := by
  have hself : s.WellFormed ∧ OnlyGroups (ServiceGroups i service settings) s s := ⟨hs, OnlyGroups.refl _ s⟩
  refine Program.Always.lift_bind hself fun n _ => Program.Always.lift_bind hself fun specs hspecs => ?_
  have hall : (convergeBackends i service settings ∅ (specs.map (·.backend))).Always
      (fun u => u.WellFormed ∧ OnlyGroups (ServiceGroups i service settings) s u) s :=
    (always_convergeBackends hs).mono fun u ⟨hu, h⟩ => ⟨hu, h.mono fun _ hn => ⟨specs, hspecs, hn⟩⟩
  refine Program.Always.bind hall fun groups t ht u hu => ?_
  refine (Program.visits_lift_bind.1 hu).elim (fun h => h ▸ hall.yields ht) fun ⟨selector, _, hu⟩ => ?_
  rw [Program.visits_pure.1 hu]
  exact hall.yields ht

theorem yields_convergeTargetGroups (hd : DistinctBackends i service settings) (hs : s.WellFormed)
    (h : (convergeTargetGroups i service settings).Yields s groups t) :
    GroupsReady i service settings groups t := by
  obtain ⟨⟨ns, name⟩, hn, h⟩ := Program.yields_lift_bind.1 h
  obtain ⟨specs, hspecs, h⟩ := Program.yields_lift_bind.1 h
  obtain ⟨byBackend, t₁, h₁, h⟩ := Program.yields_bind.1 h
  obtain ⟨selector, hsel, h⟩ := Program.yields_lift_bind.1 h
  obtain ⟨rfl, rfl⟩ := Program.yields_pure.1 h
  exact ⟨ns, name, specs, selector, hn, hspecs, yields_convergeBackends (hd specs hspecs) hs h₁, hsel, rfl⟩

theorem rests_convergeTargetGroups (hu : u.WellFormed) (h : GroupsReady i service settings groups u) :
    (convergeTargetGroups i service settings).Rests (DefinitePlans i service settings) id u groups := by
  obtain ⟨ns, name, specs, selector, hn, hspecs, hready, hsel, hgroups⟩ := h
  refine Program.Rests.lift_bind hn (Program.Rests.lift_bind hspecs ?_)
  refine Program.Rests.bind (v := id) (rests_convergeBackends hu hready) ?_
  rintro _ rfl
  refine Program.Rests.lift_bind hsel (Program.Rests.of_ends (Program.ends_pure.2 ⟨?_, rfl, rfl⟩))
  rw [← hgroups]

theorem resumes_convergeTargetGroups (hd : DistinctBackends i service settings) (hs : s.WellFormed) :
    (convergeTargetGroups i service settings).Resumes id s := by
  refine Program.Resumes.lift_bind fun n _ => Program.Resumes.lift_bind fun specs hspecs => ?_
  refine Program.Resumes.bind (resumes_convergeBackends (hd specs hspecs) hs)
    (fun g g' h => by rw [show g' = g from h])
    (fun _ _ _ => Program.Resumes.lift_bind fun _ _ => Program.resumes_pure _ _) fun g t u ht hu => ?_
  have hut : u = t := (Program.visits_lift_bind.1 hu).elim id fun ⟨_, _, hu⟩ => Program.visits_pure.1 hu
  rw [hut]
  have hready := yields_convergeBackends (hd specs hspecs) hs ht
  exact (rests_convergeBackends (always_convergeBackends hs t ht.visits).1 hready).yields

end

/-! ## Left over target groups -/

/-- The selected target groups that are not in use. -/
def leftover (s : Resources) (wanted : Fields) (inUse : List Key) : List Key :=
  (s.owned wanted).filter fun k => !inUse.contains k

section

variable {s t u : Resources} {g : TargetGroups} {wanted : Fields} {inUse ks : List Key}

theorem text_of_mem_leftover (hs : s.OwnArns) {k : Key} (hk : k ∈ leftover s wanted inUse) :
    ∃ arn, k = .text arn :=
  hs.text_of_mem_owned (List.mem_of_mem_filter hk)

theorem leftover_dropTgs (s : Resources) (wanted : Fields) (inUse ks : List Key) :
    leftover (s.dropTgs ks) wanted inUse = (leftover s wanted inUse).filter fun k => !ks.any (k == ·) := by
  unfold leftover
  rw [Resources.owned_dropTgs, List.filter_filter, List.filter_filter]
  exact List.filter_congr fun _ _ => Bool.and_comm ..

/-- What a run of `deleteTargetGroups` does. -/
theorem yields_deleteTargetGroups (hks : ∀ k ∈ ks, ∃ arn, k = .text arn) :
    (deleteTargetGroups ks).Yields s () t ↔
      (∀ k ∈ ks, Resources.checkUnused k.toValue s.listeners.values = .ok ()) ∧ t = s.dropTgs ks := by
  induction ks generalizing s with
  | nil => simp [deleteTargetGroups, Resources.dropTgs_nil]
  | cons k ks ih =>
    obtain ⟨⟨arn, rfl⟩, hrest⟩ := List.forall_mem_cons.1 hks
    rw [List.forall_mem_cons]
    unfold deleteTargetGroups
    cases hu : Resources.checkUnused (.text arn) s.listeners.values with
    | error e =>
      have hstep := Resources.perform_deleteTg_refused s arn hu
      constructor
      · intro h
        obtain ⟨a, t', h, -⟩ := Program.yields_bind.1 h
        have h := Program.yields_answer.1 h
        rw [Key.toValue, hstep] at h
        cases h
      · rintro ⟨⟨h, -⟩, -⟩
        rw [Key.toValue, hu] at h
        cases h
    | ok _ =>
      have hstep := Program.does_answer (Resources.perform_deleteTg s arn hu)
      rw [Key.toValue, hstep.yields_bind_iff, (Program.does_info _ _ _).yields_bind_iff, ih hrest,
        Resources.dropTgs_dropTgs]
      simp [hu]

theorem visits_deleteTargetGroups (hks : ∀ k ∈ ks, ∃ arn, k = .text arn)
    (h : (deleteTargetGroups ks).Visits s u) :
    ∃ gone, gone ⊆ ks ∧ u = s.dropTgs gone := by
  induction ks generalizing s with
  | nil => exact ⟨[], by simp, by rw [Program.visits_pure.1 h, Resources.dropTgs_nil]⟩
  | cons k ks ih =>
    obtain ⟨⟨arn, rfl⟩, hrest⟩ := List.forall_mem_cons.1 hks
    unfold deleteTargetGroups at h
    have hself : ∃ gone, gone ⊆ .text arn :: ks ∧ s = s.dropTgs gone :=
      ⟨[], by simp, by rw [Resources.dropTgs_nil]⟩
    cases hu : Resources.checkUnused (.text arn) s.listeners.values with
    | error e =>
      have hstep := Resources.perform_deleteTg_refused s arn hu
      rcases Program.visits_answer_bind.1 h with rfl | rfl | ⟨a, t, h, -⟩
      · exact hself
      · rw [Key.toValue, hstep]
        exact hself
      · rw [Key.toValue, hstep] at h
        cases h
    | ok _ =>
      have hstep := Program.does_answer (Resources.perform_deleteTg s arn hu)
      rcases hstep.visits_bind h with rfl | h
      · exact hself
      rcases (Program.does_info _ _ _).visits_bind h with rfl | h
      · exact ⟨[.text arn], by simp, rfl⟩
      · obtain ⟨gone, hgone, rfl⟩ := ih hrest h
        exact ⟨.text arn :: gone, List.cons_subset_cons _ hgone, Resources.dropTgs_dropTgs s [.text arn] gone⟩

/-- `collect` deletes what is left over, in some order. -/
theorem collect_cases (hs : s.OwnArns) (hsel : g.selector = .object wanted) (hu : g.arns = .ok inUse) :
    ∃ ks, ks.Perm (leftover s wanted inUse) ∧
      (∀ rs t, (collect g).Ends s () rs t ↔ (deleteTargetGroups ks).Ends s () rs t) ∧
      ∀ u, (collect g).Visits s u → (deleteTargetGroups ks).Visits s u := by
  obtain ⟨owned, howned, hkeys⟩ := Resources.tagged_eq_ok s wanted
  obtain ⟨row, hrow, hperm⟩ := Key.exists_sorted_texts fun k (hk : k ∈ s.owned wanted) =>
    hs.text_of_mem_owned hk
  have hstep : s.perform (.resourcesTagged (.object wanted) (.text targetGroupType)) = (.ok owned, s) := by
    rw [Resources.perform_resourcesTagged, howned]
  refine ⟨row.filter fun k => !inUse.contains k, hperm.filter _, fun rs t => ?_, fun u h => ?_⟩
  · unfold collect
    rw [hsel, Program.ends_lift_bind]
    simp only [hu, Except.ok.injEq, exists_eq_left', Program.ends_read_bind hstep rfl, hkeys,
      Program.ends_lift_bind, hrow]
  · have hread := Program.does_answer hstep
    unfold collect at h
    rw [hsel] at h
    rcases (Program.does_lift hu s).visits_bind h with rfl | h
    · exact Program.visits_self _ _
    rcases hread.visits_bind h with rfl | h
    · exact Program.visits_self _ _
    rw [hkeys] at h
    rcases (Program.does_lift hrow s).visits_bind h with rfl | h
    · exact Program.visits_self _ _
    · exact h

theorem isOk_arns (h : (collect g).Yields s () t) : ∃ inUse, g.arns = .ok inUse := by
  obtain ⟨inUse, hu, -⟩ := Program.yields_lift_bind.1 h
  exact ⟨inUse, hu⟩

/-- What a run of `collect` does. -/
theorem yields_collect (hs : s.OwnArns) (hsel : g.selector = .object wanted) (hu : g.arns = .ok inUse) :
    (collect g).Yields s () t ↔
      (∀ k ∈ leftover s wanted inUse, Resources.checkUnused k.toValue s.listeners.values = .ok ()) ∧
      t = s.dropTgs (leftover s wanted inUse) := by
  obtain ⟨ks, hperm, hends, -⟩ := collect_cases hs hsel hu
  have hyields : (collect g).Yields s () t ↔ (deleteTargetGroups ks).Yields s () t :=
    exists_congr fun rs => hends rs t
  rw [hyields, yields_deleteTargetGroups fun k hk => text_of_mem_leftover hs (hperm.mem_iff.1 hk),
    Resources.dropTgs_congr s fun k => hperm.mem_iff]
  exact and_congr_left fun _ => forall_congr' fun k => imp_congr_left hperm.mem_iff

/-- What a run of `collect` leaves alone, wherever it is cut off. -/
theorem visits_collect (hs : s.OwnArns) (hsel : g.selector = .object wanted) (h : (collect g).Visits s u) :
    u = s ∨ ∃ inUse gone, g.arns = .ok inUse ∧ gone ⊆ leftover s wanted inUse ∧ u = s.dropTgs gone := by
  rcases Program.visits_lift_bind.1 h with rfl | ⟨inUse, hu, -⟩
  · exact .inl rfl
  obtain ⟨ks, hperm, -, hvisits⟩ := collect_cases hs hsel hu
  obtain ⟨gone, hgone, rfl⟩ :=
    visits_deleteTargetGroups (fun k hk => text_of_mem_leftover hs (hperm.mem_iff.1 hk))
    (hvisits u h)
  exact .inr ⟨inUse, gone, hu, fun k hk => hperm.mem_iff.1 (hgone hk), rfl⟩

/-- Where nothing is left over, nothing is deleted. -/
theorem rests_collect (hu : u.OwnArns) (hsel : g.selector = .object wanted) (ha : g.arns = .ok inUse)
    (h : leftover u wanted inUse = []) : (collect g).Ends u () [] u := by
  obtain ⟨ks, hperm, hends, -⟩ := collect_cases hu hsel ha
  rw [h] at hperm
  rw [hends, hperm.eq_nil]
  exact Program.ends_pure.2 ⟨rfl, rfl, rfl⟩

/-- Nothing is left over where it was deleted. -/
theorem leftover_dropTgs_leftover (s : Resources) (wanted : Fields) (inUse : List Key) :
    leftover (s.dropTgs (leftover s wanted inUse)) wanted inUse = [] := by
  rw [leftover_dropTgs, List.filter_eq_nil_iff]
  intro k hk
  rw [Bool.not_eq_true', Bool.not_eq_false, List.any_eq_true]
  exact ⟨k, hk, BEq.rfl⟩

/-- Cut off anywhere, `collect` can be done again. -/
theorem resumes_collect (hs : s.OwnArns) (hsel : g.selector = .object wanted) : (collect g).Resumes id s := by
  intro _ t u ht hu
  refine ⟨(), ?_, rfl⟩
  obtain ⟨inUse, ha⟩ := isOk_arns ht
  obtain ⟨hfree, rfl⟩ := (yields_collect hs hsel ha).1 ht
  rcases visits_collect hs hsel hu with rfl | ⟨inUse', gone, ha', hgone, rfl⟩
  · exact ht
  rw [ha] at ha'
  cases ha'
  refine (yields_collect (hs.dropTgs gone) hsel ha).2 ⟨fun k hk => ?_, ?_⟩
  · rw [leftover_dropTgs] at hk
    exact hfree k (List.mem_of_mem_filter hk)
  · rw [leftover_dropTgs, Resources.dropTgs_dropTgs]
    refine Resources.dropTgs_congr s fun k => ?_
    rw [List.mem_append, List.mem_filter, Bool.not_eq_true', List.any_eq_false]
    constructor
    · intro hk
      by_cases hg : k ∈ gone
      · exact .inl hg
      · refine .inr ⟨hk, fun k' hk' hkk => ?_⟩
        obtain ⟨arn, rfl⟩ := text_of_mem_leftover hs (hgone hk')
        rw [Key.eq_text_of_beq hkk] at hg
        exact hg hk'
    · rintro (hk | ⟨hk, -⟩)
      · exact hgone hk
      · exact hk

end

end Converge

end Balancer
