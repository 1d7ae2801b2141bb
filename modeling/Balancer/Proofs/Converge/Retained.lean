import Balancer.Proofs.Cloud.Refusal
import Balancer.Proofs.Converge.Service
import Balancer.Proofs.Converge.Sorts

/-!
# Targets that are retained

* `HasTarget k t s` : a target group contains a target; `Preserves v w` : no target group is gone,
  and none has lost a target;
* `Gentle` : requests that leave target groups and their targets alone but for settings (`preserves_gentle`);
* `LosesOnly arn ts v w` : of targets, only those of one target group are lost that are not among some. Each
  request of `convergeTargets` is so (`each_convergeTargets`), since it deregisters nothing that is desired;
* `Retains i service settings v w` : the target groups of the backends of a Service are kept, and of their
  targets those that the backends resolve to. Each request by which target groups or listeners are converged
  is so (`each_convergeTargetGroups`, `gentle_convergeListeners`).
-/

namespace Balancer

set_option autoImplicit false

namespace Converge

open Cluster Resources Routing Program

/-! ## Targets of target groups -/

/-- The target group of a key contains a target. -/
def HasTarget (k : Key) (t : Target) (s : Resources) : Prop := (s.targetsOf k).any (·.alike t.toValue) = true

/-- No target group is gone, and none has lost a target. -/
def Preserves (v w : Resources) : Prop :=
  ∀ n k, GroupNamed n k v → GroupNamed n k w ∧ ∀ t, HasTarget k t v → HasTarget k t w

/-- A request that leaves target groups and their targets alone but for settings. -/
def Gentle : Request → Prop
  | .createTargetGroup _ | .deleteTargetGroup _ | .registerTargets _ _ | .deregisterTargets _ _ => False
  | _ => True

section

variable {q : Request} {k : Key} {arn : String} {params tg : Fields} {s t u v w : Resources}

theorem HasTarget.of_eq {x : Target} (h : HasTarget k x v) (ht : w.targets.get? k = v.targets.get? k) :
    HasTarget k x w := by
  rwa [HasTarget, targetsOf, ht]

theorem Preserves.refl (v : Resources) : Preserves v v := fun _ _ h => ⟨h, fun _ h => h⟩

theorem Preserves.of_eq (hg : w.targetGroups = v.targetGroups) (ht : w.targets = v.targets) : Preserves v w :=
  fun _ _ ⟨tg, hk, hn⟩ => ⟨⟨tg, hg ▸ hk, hn⟩, fun _ hx => hx.of_eq (by rw [ht])⟩

/-- Requests other than those about target groups and their targets change neither. -/
theorem groups_effect (hq : Gentle q) (hmodify : ∀ params, q ≠ .modifyTargetGroup params) :
    (s.effect q).2.targetGroups = s.targetGroups ∧ (s.effect q).2.targets = s.targets := by
  have hchange : ∀ {α : Type} {x : Except Error (α × Resources)},
      (∀ a t, x = .ok (a, t) → t.targetGroups = s.targetGroups ∧ t.targets = s.targets) →
        (s.change x).2.targetGroups = s.targetGroups ∧ (s.change x).2.targets = s.targets := by
    intro α x hx
    cases x with
    | error e => exact ⟨rfl, rfl⟩
    | ok y => exact hx y.1 y.2 rfl
  have hbind : ∀ {α β : Type} {x : Except Error α} {f : α → Except Error (β × Resources)},
      (∀ a b t, f a = .ok (b, t) → t.targetGroups = s.targetGroups ∧ t.targets = s.targets) →
        ∀ b t, (x >>= f) = .ok (b, t) → t.targetGroups = s.targetGroups ∧ t.targets = s.targets := by
    intro α β x f hf b t hx
    obtain ⟨a, -, hb⟩ := bind_eq_ok_iff.1 hx
    exact hf a b t hb
  cases q <;> try exact ⟨rfl, rfl⟩
  case createTargetGroup params => exact hq.elim
  case deleteTargetGroup arn => exact hq.elim
  case registerTargets arn new => exact hq.elim
  case deregisterTargets arn gone => exact hq.elim
  case modifyTargetGroup params => exact (hmodify params rfl).elim
  case createLoadBalancer params =>
    show (s.createLb params).2.targetGroups = _ ∧ (s.createLb params).2.targets = _
    unfold Resources.createLb
    cases Fields.item params "Name" <;> cases (Fields.get params "Subnets").elementsIfAny <;>
      cases readTags (Fields.get params "Tags") <;> exact ⟨rfl, rfl⟩
  case removeTags arn keys =>
    show (s.untag arn keys).2.targetGroups = _ ∧ (s.untag arn keys).2.targets = _
    unfold untag
    cases keys.elements >>= Value.sorted with
    | error e => exact ⟨rfl, rfl⟩
    | ok vs =>
      cases vs with
      | nil => exact ⟨rfl, rfl⟩
      | cons v vs =>
        cases arn.key with
        | error e => exact ⟨rfl, rfl⟩
        | ok k =>
          dsimp only
          split <;> exact ⟨rfl, rfl⟩
  all_goals
    refine hchange ?_
    repeat refine hbind fun a => ?_
    rintro b t ⟨⟩
    exact ⟨rfl, rfl⟩

/-- Modified settings of a target group leave its name. -/
theorem preserves_modifyTg (s : Resources) (params : Fields) :
    Preserves s (s.change (s.modifyTg params)).2 := by
  cases h : s.modifyTg params with
  | error e => exact Preserves.refl s
  | ok y =>
    obtain ⟨arn, -, h⟩ := bind_eq_ok_iff.1 h
    obtain ⟨⟨k, tg⟩, hat, h⟩ := bind_eq_ok_iff.1 h
    cases h
    refine fun n k' ⟨tg', hk', hn⟩ => ⟨?_, fun t ht => ht⟩
    by_cases hkk : (k == k') = true
    · refine ⟨modifiedTg tg params, ?_, ?_⟩
      · exact (Table.get?_insert _ _ _ _).trans (if_pos hkk)
      · rw [Table.get?_congr _ (BEq.symm hkk), get?_of_at hat] at hk'
        cases hk'
        rw [get_modifiedTg (by decide), hn]
    · exact ⟨tg', ((Table.get?_insert _ _ _ _).trans (if_neg hkk)).trans hk', hn⟩

theorem preserves_gentle (hq : Gentle q) (s : Resources) : Preserves s (s.perform q).2 := by
  rcases perform_snd s q with hsame | heffect
  · rw [hsame]
    exact Preserves.refl s
  rw [heffect]
  by_cases hmodify : ∃ params, q = .modifyTargetGroup params
  · obtain ⟨params, rfl⟩ := hmodify
    exact preserves_modifyTg s params
  · obtain ⟨hg, ht⟩ := groups_effect (s := s) hq fun params h => hmodify ⟨params, h⟩
    exact Preserves.of_eq hg ht

/-- A new target group stands under an ARN of its own. -/
theorem preserves_createTg (hs : s.WellFormed) (params : Fields) :
    Preserves s (s.perform (.createTargetGroup params)).2 := by
  rcases perform_snd s (.createTargetGroup params) with hsame | heffect
  · rw [hsame]
    exact Preserves.refl s
  have hinsert : ∀ {w : Resources} {arn : String} {tg : Fields}, Numbered s.nextId arn →
      w.targetGroups = s.targetGroups.insert (.text arn) tg →
      w.targets = s.targets.insert (.text arn) [] → Preserves s w := by
    intro w arn tg harn hg ht n k ⟨tg', hk, hn⟩
    have hne : (Key.text arn == k) = false := by
      refine Bool.eq_false_iff.2 fun h => ?_
      rw [← Table.get?_congr _ h, hs.tgFresh (Nat.le_refl _) harn] at hk
      cases hk
    refine ⟨⟨tg', ?_, hn⟩, fun t h => h.of_eq ?_⟩
    · rw [hg, Table.get?_insert_of_ne _ _ hne, hk]
    · rw [ht, Table.get?_insert_of_ne _ _ hne]
  rw [heffect]
  simp only [effect, Resources.createTg]
  cases Fields.item params "Name" with
  | error e => exact Preserves.of_eq rfl rfl
  | ok name =>
    cases readTags (Fields.get params "Tags") <;> exact hinsert (numbered_tgArn name.shown s.nextId) rfl rfl

theorem AtTags.gentle {arn : Value} (h : AtTags arn q) : Gentle q := by
  cases q <;> trivial

theorem AtLb.gentle {arn : Value} (h : AtLb arn q) : Gentle q := by
  cases q <;> trivial

end

/-! ## Converging targets -/

/-- Target groups are the same, and of their targets only those of one target group are lost
that are not among some. -/
structure LosesOnly (arn : String) (ts : List Target) (v w : Resources) : Prop where
  groups : w.targetGroups = v.targetGroups
  kept : ∀ k t, (k = .text arn → t ∈ ts) → HasTarget k t v → HasTarget k t w

section

variable {arn : String} {ts : List Target} {wanted ks new gone : List (Key × Key)} {s t v w : Resources}

theorem LosesOnly.refl (arn : String) (ts : List Target) (v : Resources) : LosesOnly arn ts v v :=
  ⟨rfl, fun _ _ _ h => h⟩

theorem any_withTargets {p : Value → Bool} {current : List Value} (ts : List Target)
    (h : current.any p = true) :
    (withTargets current ts).any p = true := by
  unfold withTargets
  refine List.foldlRecOn (motive := fun (vs : List Value) => vs.any p = true) ts _ h fun vs hvs t _ => ?_
  split
  · exact hvs
  · rw [List.any_append, hvs, Bool.true_or]

theorem losesOnly_register (s : Resources) (arn : String) {new : List Target}
    (hne : new ≠ []) (ts : List Target) :
    LosesOnly arn ts s (s.perform (.registerTargets (.text arn) (targetList new))).2 := by
  rw [perform_registerTargets s arn hne]
  cases hc : s.targets.get? (.text arn) with
  | none => exact LosesOnly.refl arn ts s
  | some current =>
    refine ⟨rfl, fun k t _ ht => ?_⟩
    by_cases hk : (Key.text arn == k) = true
    · obtain rfl := Key.eq_text_of_beq (BEq.symm hk)
      rw [HasTarget, targetsOf, hc] at ht
      rw [HasTarget, targetsOf, putTargets_targets, Table.get?_insert_self]
      exact any_withTargets new ht
    · exact ht.of_eq (Table.get?_insert_of_ne _ _ (Bool.eq_false_iff.2 hk))

/-- What is deregistered is not desired. -/
theorem TargetsPlan.losesOnly (h : TargetsPlan s arn wanted ks new gone)
    (hw : targetKeys (ts.map Target.toValue) = .ok wanted) :
    LosesOnly arn ts (Converge.registered s arn new)
      ((Converge.registered s arn new).perform
        (.deregisterTargets (.text arn) (targetList (gone.map Target.ofKey)))).2 := by
  have hdescribed := h.registered_eq
  rw [perform_deregisterTargets]
  cases hc : (Converge.registered s arn new).targets.get? (.text arn) with
  | none => exact LosesOnly.refl arn ts _
  | some current =>
    rw [targetsOf, hc, Option.getD_some] at hdescribed
    refine ⟨rfl, fun k t hmem ht => ?_⟩
    by_cases hk : (Key.text arn == k) = true
    · obtain rfl := Key.eq_text_of_beq (BEq.symm hk)
      obtain ⟨x, hx, hkey⟩ := exists_of_mapM hw t.toValue (List.mem_map_of_mem (hmem rfl))
      obtain rfl : t = Target.ofKey x := Target.eq_ofKey_of_key hkey
      have hleft : Described (withoutTargets current (gone.map Target.ofKey)) _ := hdescribed.withoutTargets
      rw [HasTarget, targetsOf, hc, Option.getD_some, hdescribed.any_alike] at ht
      rw [HasTarget, targetsOf, putTargets_targets, Table.get?_insert_self, Option.getD_some,
        hleft.any_alike]
      obtain ⟨y, hy, hxy⟩ := List.contains_iff_exists_mem_beq.1 ht
      refine List.contains_iff_exists_mem_beq.2 ⟨y, List.mem_filter.2 ⟨hy, ?_⟩, hxy⟩
      -- a desired target is not among those that are missing from the desired ones
      have hdesired : wanted.contains y = true :=
        (contains_congr hxy).symm.trans (List.contains_iff_exists_mem_beq.2 ⟨x, hx, BEq.rfl⟩)
      rw [contains_perm h.gone_perm, contains_missingKeys, hdesired, Bool.not_true, Bool.and_false]
      rfl
    · exact ht.of_eq (Table.get?_insert_of_ne _ _ (Bool.eq_false_iff.2 hk))

/-- `convergeTargets` deregisters nothing that is desired. -/
theorem each_convergeTargets (hp : ∀ x ∈ s.targetsOf (.text arn), IsPlain x) :
    (convergeTargets (.text arn) (targetList ts)).Each
      (fun q v => v.targetGroups = s.targetGroups ∧ LosesOnly arn ts v (v.perform q).2) s := by
  have hread := does_answer (perform_targets s arn)
  rw [convergeTargets_eq]
  refine Each.bind (each_answer ⟨rfl, LosesOnly.refl arn ts s⟩) fun current t ht => ?_
  obtain ⟨rfl, rfl⟩ := hread.1.unique ht
  refine each_lift_bind fun ks hks => each_lift_bind fun _ hts => each_lift_bind fun wanted hw => ?_
  cases hts
  refine each_lift_bind fun additions hadd => each_lift_bind fun removals hrem => ?_
  obtain ⟨new, rfl, hnew⟩ := exists_of_missingFrom hadd
  obtain ⟨gone, rfl, hgone⟩ := exists_of_missingFrom hrem
  have hregister : (doIf (!(new.map Target.ofKey).isEmpty)
      (answer (.registerTargets (.text arn) (targetList (new.map Target.ofKey))))).Each
        (fun q v => v.targetGroups = t.targetGroups ∧ LosesOnly arn ts v (v.perform q).2) t :=
    each_doIf fun hne => each_answer ⟨rfl, losesOnly_register t arn (by simpa using hne) ts⟩
  refine Each.bind hregister fun _ u hu => ?_
  by_cases hthere : new ≠ [] → (t.targets.get? (.text arn)).isSome
  · have hplan : TargetsPlan t arn wanted ks new gone := ⟨⟨hp, hks⟩, hadd, hrem, hthere⟩
    obtain ⟨-, rfl⟩ := hplan.does_register.1.unique hu
    have hgroups : (registered t arn new).targetGroups = t.targetGroups := by
      unfold registered
      split <;> rfl
    exact Each.bind (each_doIf fun _ => each_answer ⟨hgroups, hplan.losesOnly hw⟩) fun _ _ _ => each_pure _
  · -- without an entry for its targets the target group takes none, and nothing is asked after that
    obtain ⟨hne, hnone⟩ := Classical.not_imp.1 hthere
    have hsome : new.map Target.ofKey ≠ [] := by simpa using hne
    have hregister := perform_registerTargets t arn hsome
    rw [Option.not_isSome_iff_eq_none.1 hnone] at hregister
    rw [show (!(new.map Target.ofKey).isEmpty) = true by
      simpa using hne, doIf, if_pos rfl, yields_answer, hregister] at hu
    cases hu

end

/-! ## What the backends of a Service retain -/

/-- A backend of a Service that is no declared action, and the name of its target group. -/
def BackendOf (i : Inputs) (service : Value) (settings : ServiceSettings) (n : String) (b : Backend) : Prop :=
  ∃ specs, listenerSpecs service settings = .ok specs ∧ b ∈ specs.map (·.backend) ∧
    Actions.isUsed b.port = false ∧
    groupName i service settings b = .ok n

/-- The target groups of the backends of a Service are kept, and of their targets those that
the backends resolve to. -/
def Retains (i : Inputs) (service : Value) (settings : ServiceSettings) (v w : Resources) : Prop :=
  ∀ n b k, BackendOf i service settings n b → GroupNamed n k v → GroupNamed n k w ∧
    ∀ ts, resolveTargets i.store service b settings.targetGroup.targetType = .ok ts →
      ∀ t ∈ ts, HasTarget k t v → HasTarget k t w

section

variable {i : Inputs} {service : Value} {settings : ServiceSettings} {n arn : String}
  {b b' : Backend} {bs : List Backend} {there : Table BackendKey TargetGroup} {groups : TargetGroups}
  {specs : List ListenerSpec} {tags : Table String Value} {ts : List Target} {s t u v w : Resources}

theorem Retains.refl (i : Inputs) (service : Value) (settings : ServiceSettings) (v : Resources) :
    Retains i service settings v v := fun _ _ _ _ h => ⟨h, fun _ _ _ _ h => h⟩

theorem Retains.trans (h : Retains i service settings u v) (h' : Retains i service settings v w) :
    Retains i service settings u w := by
  intro n b k hb hn
  obtain ⟨hn, hkept⟩ := h n b k hb hn
  obtain ⟨hn', hkept'⟩ := h' n b k hb hn
  exact ⟨hn', fun ts hts t ht hx => hkept' ts hts t ht (hkept ts hts t ht hx)⟩

theorem Preserves.retains (h : Preserves v w) : Retains i service settings v w := fun n _ k _ hn =>
  ⟨(h n k hn).1, fun _ _ t _ => (h n k hn).2 t⟩

/-- A name of target groups is for one backend. -/
theorem BackendOf.unique (hd : DistinctBackends i service settings) (h : BackendOf i service settings n b)
    (h' : BackendOf i service settings n b') : b = b' := by
  obtain ⟨specs, hspecs, hb, hused, hn⟩ := h
  obtain ⟨specs', hspecs', hb', hused', hn'⟩ := h'
  rw [hspecs] at hspecs'
  cases hspecs'
  by_contra hne
  refine @List.Pairwise.forall _ _ _ ⟨fun b b' hbb hused hused' n hn hn' => ?_⟩
    (hd specs hspecs) _ hb _ hb' hne hused hused' n hn hn'
  exact hbb hused' hused n hn' hn

/-- What the target group of a backend loses is not what the backend resolves to. -/
theorem LosesOnly.retains (h : LosesOnly arn ts v w) (hd : DistinctBackends i service settings)
    (hb : BackendOf i service settings n b) (hnamed : GroupNamed n (.text arn) v)
    (hts : resolveTargets i.store service b settings.targetGroup.targetType = .ok ts) :
    Retains i service settings v w := by
  rintro n' b' k hb' ⟨tg, hk, hn'⟩
  refine ⟨⟨tg, h.groups ▸ hk, hn'⟩, fun ts' hts' t ht => h.kept k t fun hka => ?_⟩
  obtain ⟨tg', hk', hn⟩ := hnamed
  rw [hka, hk'] at hk
  cases hk
  rw [hn] at hn'
  cases hn'
  obtain rfl := hb.unique hd hb'
  rw [hts] at hts'
  cases hts'
  exact ht

theorem each_gentle {α : Type} {p : Program α} (hp : p.Asks Gentle) (s : Resources) :
    p.Each (fun q v => Retains i service settings v (v.perform q).2) s :=
  hp.each fun _ v hq => (preserves_gentle hq v).retains

theorem gentle_convergeTgAttributes {arn desired : Value} :
    (convergeTgAttributes arn desired).Asks Gentle := by
  refine asks_ite (asks_pure _) (Asks.bind (asks_answer (P := Gentle) (by exact trivial)) fun _ => Asks.bind
    (asks_lift _) fun _ => ?_)
  exact asks_ite (asks_pure _) (Asks.bind (asks_answer (P := Gentle) (by exact trivial)) fun _ => asks_pure _)

theorem each_ensureTargetGroup {targetType protocol tags : Value} {check : Fields} (hs : s.WellFormed) :
    (ensureTargetGroup i n targetType protocol check tags).Each
      (fun q v => Retains i service settings v (v.perform q).2) s := by
  unfold ensureTargetGroup
  refine Each.bind (each_gentle (asks_answer (P := Gentle) (by exact trivial)) s) fun group t ht => ?_
  obtain ⟨-, rfl⟩ := (does_answer (perform_targetGroupNamed s (.text n))).1.unique ht
  cases group with
  | null =>
    refine each_lift_bind fun vs _ => Each.bind (each_answer (preserves_createTg hs _).retains) fun _ _ _ =>
      each_lift_bind fun _ _ => ?_
    exact Each.bind (each_info _ _) fun _ _ _ => each_pure _
  | _ =>
    refine each_gentle ?_ t
    refine Asks.bind (asks_lift _) fun _ => asks_ite (Asks.bind (asks_lift _) fun _ => ?_) (asks_pure _)
    exact Asks.bind (asks_answer (P := Gentle) (by exact trivial)) fun _ =>
      Asks.bind (asks_info _ _) fun _ => asks_pure _

theorem each_furnish (hs : s.WellFormed) (hd : DistinctBackends i service settings)
    (hb : BackendOf i service settings n b) (hnamed : GroupNamed n (.text arn) s) :
    (furnish i.store service settings b tags (.text arn)).Each
      (fun q v => Retains i service settings v (v.perform q).2) s := by
  refine Each.bind (each_gentle (asks_convergeTags.mono fun _ => AtTags.gentle) s) fun _ t ht => ?_
  have hat := (always_convergeTags s arn tags.distinct).yields ht
  have hwf := hat.wellFormed hs
  have hnamed : GroupNamed n (.text arn) t := by
    obtain ⟨⟨l, rfl⟩, -⟩ := hat
    exact hnamed
  refine Each.bind (each_gentle gentle_convergeTgAttributes t) fun _ u hu => each_lift_bind fun ts hts => ?_
  obtain ⟨-, rfl⟩ :=
    (does_convergeTgAttributes t arn (textFields settings.targetGroup.attributes)).1.unique hu
  have hwf' := wellFormed_tgAttributed hwf arn (textFields settings.targetGroup.attributes)
  have hnamed : GroupNamed n (.text arn)
      (tgAttributed t arn (textFields settings.targetGroup.attributes)) := by
    rcases tgAttributed_eq t arn (textFields settings.targetGroup.attributes) with h | ⟨l, h⟩
    · rwa [h]
    · rw [h]
      exact hnamed
  refine Each.bind ((each_convergeTargets (hwf'.plain_targetsOf _)).mono fun q v ⟨hgroups, hloses⟩ => ?_)
    fun _ _ _ => each_pure _
  refine hloses.retains hd hb ?_ hts
  obtain ⟨tg, hk, hn⟩ := hnamed
  exact ⟨tg, hgroups ▸ hk, hn⟩

theorem each_convergeTargetGroup (hs : s.WellFormed) (hd : DistinctBackends i service settings)
    (hb : ∀ n, groupName i service settings b = .ok n → BackendOf i service settings n b) :
    (convergeTargetGroup i service settings b).Each
      (fun q v => Retains i service settings v (v.perform q).2) s := by
  rw [convergeTargetGroup_eq]
  refine each_lift_bind fun plan hplan => Each.bind (each_ensureTargetGroup hs) fun group t ht =>
    each_lift_bind fun arn harn => ?_
  rcases ensureTargetGroup_cases hs (isCheck_of_planGroup hplan) with
    hfail | ⟨a, tg, t', hdoes, ha, ⟨tg', hk, hn, -⟩, hwf, -⟩
  · exact (hfail.1 _ _ ht).elim
  obtain ⟨rfl, rfl⟩ := hdoes.1.unique ht
  rw [Value.item_object, Fields.item_of_get_text ha] at harn
  cases harn
  exact each_furnish hwf hd (hb plan.name (planGroup_eq_ok hplan).1) ⟨tg', hk, hn⟩

theorem each_convergeBackends (hs : s.WellFormed) (hd : DistinctBackends i service settings)
    (hbs : ∀ b ∈ bs, Actions.isUsed b.port = false → ∀ n, groupName i service settings b = .ok n →
      BackendOf i service settings n b) :
    (convergeBackends i service settings there bs).Each
      (fun q v => Retains i service settings v (v.perform q).2) s := by
  induction bs generalizing s there with
  | nil => exact each_pure _
  | cons b bs ih =>
    obtain ⟨hb, hbs⟩ := List.forall_mem_cons.1 hbs
    unfold convergeBackends
    split
    · exact ih hs hbs
    rename_i hused
    refine each_lift_bind fun key _ => ?_
    split
    · exact ih hs hbs
    refine Each.bind (each_convergeTargetGroup hs hd (hb (Bool.eq_false_iff.2 hused))) fun g t ht => ?_
    exact ih (visits_convergeTargetGroup hs ht.visits).1 hbs

theorem each_convergeTargetGroups (hs : s.WellFormed) (hd : DistinctBackends i service settings) :
    (convergeTargetGroups i service settings).Each
      (fun q v => Retains i service settings v (v.perform q).2) s := by
  refine each_lift_bind fun ⟨ns, name⟩ _ => each_lift_bind fun specs hspecs => ?_
  refine Each.bind (each_convergeBackends hs hd fun b hb hused n hn => ⟨specs, hspecs, hb, hused, hn⟩)
    fun _ _ _ => ?_
  exact each_lift_bind fun _ _ => each_pure _

theorem ListenerWork.gentle {q : Request} (h : ListenerWork q) : Gentle q := by
  cases q with
  | createTargetGroup params => exact h.elim
  | deleteTargetGroup arn => exact h.elim
  | registerTargets arn new => exact h.elim
  | deregisterTargets arn gone => exact h.elim
  | _ => trivial

theorem gentle_convergeListeners {lbArn : Value} :
    (convergeListeners lbArn service settings groups).Asks Gentle :=
  listenerWork_convergeListeners.mono fun _ => ListenerWork.gentle

end

end Converge

end Balancer
