import Balancer.Proofs.Cloud.Growth
import Balancer.Proofs.Cloud.Refusal
import Balancer.Proofs.Converge.TargetGroup
import Balancer.Proofs.Converge.Subnets

/-!
# What the steps at a known ARN ask

* `AtTags arn`, `AtLb arn`, `AtGroup arn` : requests about the tags of an ARN, about its load
  balancer, about its target group;
* `asks_convergeTags`, `asks_modifyLb`, `asks_convergeTargets` and so on : a step at a known ARN
  asks such requests only;
* `AtLb.cases` : what such a request leaves of a load balancer that is there;
* `LbWork Q` : requests by which a load balancer is converged (`lbWork_convergeLb`), `GroupWork P` : those by
  which target groups are (`groupWork_convergeTargetGroups`), `ListenerWork` : those by which listeners are
  (`listenerWork_convergeListeners`);
* `asks_ensureListeners`, `asks_deleteListeners` and so on : the requests that write listeners, one by one;
* `targetGroups_effect` : what a request that deletes none leaves of the target groups;
* `Makes P`, `Titled P` : requests that create target groups of some names and protocols only, and
  clouds that have such only;
* `LbFor n lb` : a configuration of a load balancer with a name, its tags and subnets
  read as they are written.
-/

namespace Balancer

set_option autoImplicit false

namespace Program

variable {α : Type} {P P' : Request → Prop} {p : Program α}

theorem Asks.mono (h : p.Asks P) (hP : ∀ r, P r → P' r) : p.Asks P' := by
  induction p with
  | done x => trivial
  | ask r next ih => exact ⟨hP r h.1, fun x => ih x (h.2 x)⟩
  | tell n next ih => exact ih h

theorem Surveys.asks (h : p.Surveys) (hcluster : ∀ key, P (.clusterSubnets key))
    (hnamed : ∀ names, P (.subnetsNamed names)) :
    p.Asks P := by
  induction p with
  | done x => trivial
  | ask r next ih =>
    cases r with
    | clusterSubnets key => exact ⟨hcluster key, fun x => ih x (h x)⟩
    | subnetsNamed names => exact ⟨hnamed names, fun x => ih x (h x)⟩
    | _ => exact h.elim
  | tell n next ih => exact ih h

theorem asks_doIf {p : Program Unit} (hp : p.Asks P) (b : Bool) : (doIf b p).Asks P :=
  asks_ite hp (asks_pure _)

end Program

namespace Converge

open Cluster Resources Routing Program

/-! ## Sorts -/

/-- A request about the tags of an ARN. -/
def AtTags (arn : Value) : Request → Prop
  | .tags v | .removeTags v _ => v = arn
  | .addTags v new => v = arn ∧ ∃ fs, new = .object fs
  | _ => False

/-- A request about the load balancer of an ARN, its attributes and its tags. -/
def AtLb (arn : Value) : Request → Prop
  | .lbAttributes v | .setIpAddressType v _ | .setSubnets v _ => v = arn
  | .modifyLbAttributes v new => v = arn ∧ ∃ fs, new = .object fs
  | r => AtTags arn r

/-- A request about the targets, the attributes and the tags of the target group of an ARN. -/
def AtGroup (arn : Value) : Request → Prop
  | .tgAttributes v | .targets v | .registerTargets v _ | .deregisterTargets v _ => v = arn
  | .modifyTgAttributes v new => v = arn ∧ ∃ fs, new = .object fs
  | r => AtTags arn r

section

variable {s : Resources} {a : String} {arn : Value} {r : Request} {lb : Fields}

theorem AtTags.atLb (h : AtTags arn r) : AtLb arn r := by
  cases r with
  | tags arn => exact h
  | addTags arn new => exact h
  | removeTags arn keys => exact h
  | _ => exact h.elim

theorem AtTags.atGroup (h : AtTags arn r) : AtGroup arn r := by
  cases r with
  | tags arn => exact h
  | addTags arn new => exact h
  | removeTags arn keys => exact h
  | _ => exact h.elim

theorem AtLb.isSafe (h : AtLb arn r) : IsSafe r := by
  cases r <;> trivial

theorem AtGroup.isSafe (h : AtGroup arn r) : IsSafe r := by
  cases r <;> trivial

/-- A request that is not taken up changes nothing. -/
theorem perform_snd (s : Resources) (r : Request) :
    (s.perform r).2 = s ∨ (s.perform r).2 = (s.effect r).2 := by
  rw [perform_eq]
  split
  · exact .inl rfl
  · exact .inr rfl

theorem untag_cases (s : Resources) (a : String) (keys : Value) :
    (s.untag (.text a) keys).2 = s ∨ ∃ l, (s.untag (.text a) keys).2 = s.putTags (.text a) l := by
  unfold untag
  split
  · exact .inl rfl
  · exact .inl rfl
  · simp only [Value.key_text]
    split
    · exact .inl rfl
    · exact .inr ⟨_, rfl⟩

theorem setLbField_cases (hk : s.loadBalancers.get? (.text a) = some lb) (k : String) (v : Value) :
    (s.change (s.setLbField (.text a) k v)).2 = s.putLb (.text a) (Entries.put k v lb) := by
  simp only [setLbField, at_, Value.key_text, bind, Except.bind, hk]
  rfl

/-- What a request about a load balancer leaves of it: a field of the description, the tags or the
attributes are written. -/
theorem AtLb.cases (h : AtLb (.text a) r) (hk : s.loadBalancers.get? (.text a) = some lb) :
    (s.perform r).2 = s ∨
      (∃ k v, k ∉ ["LoadBalancerArn", "LoadBalancerName"] ∧
        (s.perform r).2 = s.putLb (.text a) (Entries.put k v lb)) ∨
      (∃ l, (s.perform r).2 = s.putTags (.text a) l) ∨
        ∃ l, (s.perform r).2 = s.putLbAttributes (.text a) l := by
  rcases perform_snd s r with hsame | heffect
  · exact .inl hsame
  rw [heffect]
  cases r with
  | lbAttributes arn => exact .inl rfl
  | tags arn => exact .inl rfl
  | setIpAddressType arn type =>
    cases h
    exact .inr (.inl ⟨"IpAddressType", type, by decide, setLbField_cases hk _ _⟩)
  | setSubnets arn subnets =>
    cases h
    simp only [effect, bind, Except.bind]
    cases subnets.elements with
    | error e => exact .inl rfl
    | ok vs => exact .inr (.inl ⟨"AvailabilityZones", zones vs, by decide, setLbField_cases hk _ _⟩)
  | modifyLbAttributes arn new =>
    obtain ⟨rfl, fs, rfl⟩ := h
    exact .inr (.inr (.inr ⟨_, rfl⟩))
  | addTags arn new =>
    obtain ⟨rfl, fs, rfl⟩ := h
    exact .inr (.inr (.inl ⟨_, rfl⟩))
  | removeTags arn keys =>
    cases h
    exact (untag_cases s a keys).imp_right fun h => .inr (.inl h)
  | _ => exact h.elim

end

/-! ## Steps at a known ARN -/

section

variable {arn live desired : Value} {lb : LoadBalancerConfig}

theorem asks_convergeTags : (convergeTags arn desired).Asks (AtTags arn) := by
  rw [convergeTags_eq]
  refine Asks.bind (asks_answer rfl) fun _ => Asks.bind (asks_lift _) fun _ =>
    Asks.bind (asks_lift _) fun _ => ?_
  refine Asks.bind (asks_doIf (asks_answer ⟨rfl, _, rfl⟩) _) fun _ => ?_
  exact Asks.bind (asks_doIf (asks_answer (P := AtTags arn) (by exact rfl)) _) fun _ => asks_pure _

theorem asks_convergeLbAttributes : (convergeLbAttributes arn desired).Asks (AtLb arn) := by
  refine asks_ite (asks_pure _) (Asks.bind (asks_answer rfl) fun _ => Asks.bind (asks_lift _) fun _ => ?_)
  exact asks_ite (asks_pure _) (Asks.bind (asks_answer ⟨rfl, _, rfl⟩) fun _ => asks_pure _)

theorem asks_convergeTgAttributes : (convergeTgAttributes arn desired).Asks (AtGroup arn) := by
  refine asks_ite (asks_pure _) (Asks.bind (asks_answer rfl) fun _ => Asks.bind (asks_lift _) fun _ => ?_)
  exact asks_ite (asks_pure _) (Asks.bind (asks_answer ⟨rfl, _, rfl⟩) fun _ => asks_pure _)

theorem asks_convergeTargets : (convergeTargets arn desired).Asks (AtGroup arn) := by
  rw [convergeTargets_eq]
  refine Asks.bind (asks_answer rfl) fun _ => Asks.bind (asks_lift _) fun _ =>
    Asks.bind (asks_lift _) fun _ => ?_
  refine Asks.bind (asks_lift _) fun _ => Asks.bind (asks_lift _) fun _ => Asks.bind (asks_lift _) fun _ => ?_
  refine Asks.bind (asks_doIf (asks_answer (P := AtGroup arn) (by exact rfl)) _) fun _ => ?_
  exact Asks.bind (asks_doIf (asks_answer (P := AtGroup arn) (by exact rfl)) _) fun _ => asks_pure _

theorem asks_convergeIpType : (convergeIpType arn live lb).Asks (AtLb arn) := by
  refine asks_ite (asks_pure _) (Asks.bind (asks_lift _) fun _ => asks_ite (asks_pure _) ?_)
  exact Asks.bind (Asks.warning (asks_answer (P := AtLb arn) (by exact rfl)) _ _) fun _ => asks_info _ _

theorem asks_convergeSubnets : (convergeSubnets arn live lb).Asks (AtLb arn) := by
  unfold convergeSubnets
  simp only [mapM_liftM]
  refine Asks.bind (asks_lift _) fun _ => Asks.bind (asks_lift _) fun _ => Asks.bind (asks_lift _) fun _ => ?_
  refine Asks.bind (asks_lift _) fun _ => asks_ite (asks_pure _) (Asks.bind (asks_lift _) fun _ => ?_)
  exact Asks.bind (Asks.warning (asks_answer (P := AtLb arn) (by exact rfl)) _ _) fun _ => asks_info _ _

theorem asks_modifyLb (hlive : live.item "LoadBalancerArn" = .ok arn) :
    (modifyLb live lb).Asks (AtLb arn) := by
  refine asks_lift_bind fun _ harn => ?_
  rw [hlive] at harn
  cases harn
  refine Asks.bind asks_convergeIpType fun _ => Asks.bind asks_convergeSubnets fun _ => ?_
  exact Asks.bind (asks_convergeTags.mono fun _ => AtTags.atLb) fun _ => asks_pure _

end

/-! ## Names and protocols of target groups -/

/-- A request that creates target groups of some names and protocols only. -/
def Makes (P : Value → Value → Prop) : Request → Prop
  | .createTargetGroup params =>
    ∀ name, Fields.item params "Name" = .ok name → P name (Fields.get params "Protocol")
  | r => IsSafe r

/-- All target groups have some names and protocols. -/
def Titled (P : Value → Value → Prop) (s : Resources) : Prop :=
  ∀ k tg, s.targetGroups.get? k = some tg → P (Fields.get tg "TargetGroupName") (Fields.get tg "Protocol")

/-- What a request leaves of the target groups: they are the same, one is new under an ARN of its own, or
one has other settings. -/
inductive GroupsAfter (s : Resources) (r : Request) (t : Resources) : Prop
  | same (h : t.targetGroups = s.targetGroups)
  | added (params : Fields) (name : Value) (arn : String) (hr : r = .createTargetGroup params)
      (hname : Fields.item params "Name" = .ok name)
      (h : t.targetGroups = s.targetGroups.insert (.text arn) (newTg params name arn))
  | modified (k : Key) (tg params : Fields) (hk : s.targetGroups.get? k = some tg)
      (h : t.targetGroups = s.targetGroups.insert k (modifiedTg tg params))

section

variable {P : Value → Value → Prop} {s t : Resources} {r : Request} {arn : String}
  {params : Fields} {name : Value}

theorem Makes.isSafe (h : Makes P r) : IsSafe r := by
  cases r with
  | createTargetGroup params => trivial
  | _ => exact h

theorem makes_of_atGroup {arn : Value} (h : AtGroup arn r) : Makes P r := by
  cases r with
  | createTargetGroup params => exact h.elim
  | _ => exact h.isSafe

theorem get_newTg_arn (params : Fields) (name : Value) (arn : String) :
    Fields.get (newTg params name arn) "TargetGroupArn" = .text arn := by
  simp [newTg, Fields.get_put]

theorem get_newTg_name (params : Fields) (name : Value) (arn : String) :
    Fields.get (newTg params name arn) "TargetGroupName" = name := by
  rw [newTg, Fields.get_put, if_pos rfl]

theorem get_newTg_protocol (params : Fields) (name : Value) (arn : String) :
    Fields.get (newTg params name arn) "Protocol" = Fields.get params "Protocol" := by
  rw [newTg, Fields.get_put, if_neg (by decide), Fields.get_put, if_neg (by decide),
    Fields.get, Entries.find?_drop, if_neg (by decide)]
  rfl

namespace GroupsAfter

theorem change {α : Type} {x : Except Error (α × Resources)}
    (hx : ∀ a t, x = .ok (a, t) → GroupsAfter s r t) :
    GroupsAfter s r (s.change x).2 := by
  cases x with
  | error e => exact .same rfl
  | ok y => exact hx y.1 y.2 rfl

theorem bind {α β : Type} {x : Except Error α} {f : α → Except Error (β × Resources)}
    (h : ∀ a, x = .ok a → ∀ b t, f a = .ok (b, t) → GroupsAfter s r t) (b : β) (t : Resources)
    (hx : (x >>= f) = .ok (b, t)) :
    GroupsAfter s r t := by
  obtain ⟨a, ha, hb⟩ := bind_eq_ok_iff.1 hx
  exact h a ha b t hb

theorem createTg (s : Resources) (params : Fields) :
    GroupsAfter s (.createTargetGroup params) (s.createTg params).2 := by
  unfold Resources.createTg
  cases hname : Fields.item params "Name" with
  | error e => exact .same rfl
  | ok name =>
    dsimp only
    cases readTags (Fields.get params "Tags") <;> exact .added params name _ rfl hname rfl

end GroupsAfter

/-- What a request that deletes none leaves of the target groups. -/
theorem targetGroups_effect (hr : IsSafe r) (s : Resources) : GroupsAfter s r (s.effect r).2 := by
  cases r <;> try exact .same rfl
  case createTargetGroup params => exact .createTg s params
  case createLoadBalancer params =>
    simp only [effect, Resources.createLb]
    cases Fields.item params "Name" <;> cases (Fields.get params "Subnets").elementsIfAny <;>
      cases readTags (Fields.get params "Tags") <;> exact .same rfl
  case deleteTargetGroup arn => exact hr.elim
  case modifyTargetGroup params =>
    refine .change (.bind fun _ _ => .bind fun tg htg => ?_)
    rintro _ _ ⟨⟩
    exact .modified _ _ _ (get?_of_at htg) rfl
  case registerTargets arn new =>
    simp only [effect, register]
    cases new.elements with
    | error e => exact .same rfl
    | ok vs => cases vs <;> cases at_ s.targets arn <;> exact .same rfl
  case removeTags arn keys =>
    simp only [effect, untag]
    cases keys.elements >>= Value.sorted with
    | error e => exact .same rfl
    | ok vs =>
      cases vs with
      | nil => exact .same rfl
      | cons v vs =>
        cases arn.key with
        | error e => exact .same rfl
        | ok k => cases hk : s.tags.get? k <;> simp only [hk] <;> exact .same rfl
  all_goals
    refine .change ?_
    repeat refine .bind fun a _ => ?_
    rintro b t ⟨⟩
    exact .same rfl

theorem targetGroups_perform (hr : IsSafe r) (s : Resources) : GroupsAfter s r (s.perform r).2 := by
  rcases perform_snd s r with hsame | heffect
  · rw [hsame]
    exact .same rfl
  · rw [heffect]
    exact targetGroups_effect hr s

/-- The target groups have such names and protocols after any request that makes no others. -/
theorem titled_perform (h : Titled P s) (hr : Makes P r) : Titled P (s.perform r).2 := by
  intro k tg hk
  cases targetGroups_perform hr.isSafe s with
  | same hsame => exact h k tg (hsame ▸ hk)
  | added params name arn hcreate hname hadded =>
    subst hcreate
    rcases Table.get?_insert_text_iff.1 (hadded ▸ hk) with ⟨-, rfl⟩ | ⟨-, hk⟩
    · rw [get_newTg_name, get_newTg_protocol]
      exact hr name hname
    · exact h k tg hk
  | modified k' tg' params hthere hmodified =>
    rcases Table.get?_insert_eq_some_iff.1 (hmodified ▸ hk) with ⟨-, rfl⟩ | ⟨-, hk⟩
    · rw [get_modifiedTg (by decide), get_modifiedTg (by decide)]
      exact h k' tg' hthere
    · exact h k tg hk

end

/-! ## The target groups of a Service -/

/-- A request by which target groups are converged, where those that are new have some
names and protocols only. -/
def GroupWork (P : Value → Value → Prop) : Request → Prop
  | .createTargetGroup params =>
    ∀ name, Fields.item params "Name" = .ok name → P name (Fields.get params "Protocol")
  | .targetGroupNamed _ | .modifyTargetGroup _ => True
  | r => ∃ arn, AtGroup arn r

section

variable {P : Value → Value → Prop} {i : Inputs} {service : Value} {settings : ServiceSettings} {n : String}
  {targetType protocol tags : Value} {check : Fields} {b : Backend} {bs : List Backend}
  {there : Table BackendKey TargetGroup} {r : Request}

theorem AtGroup.groupWork {arn : Value} (h : AtGroup arn r) : GroupWork P r := by
  cases r with
  | createTargetGroup params => exact h.elim
  | targetGroupNamed name => trivial
  | modifyTargetGroup params => trivial
  | _ => exact ⟨arn, h⟩

theorem GroupWork.makes (h : GroupWork P r) : Makes P r := by
  cases r with
  | createTargetGroup params => exact h
  | targetGroupNamed name => trivial
  | modifyTargetGroup params => trivial
  | _ => exact h.elim fun _ => makes_of_atGroup

theorem groupWork_ensureTargetGroup (h : P (.text n) protocol) :
    (ensureTargetGroup i n targetType protocol check tags).Asks (GroupWork P) := by
  have hmake : ∀ vs, GroupWork P
      (.createTargetGroup (targetGroupParams i n targetType protocol check vs)) := by
    rintro vs name ⟨⟩
    exact h
  unfold ensureTargetGroup
  refine Asks.bind (asks_answer (P := GroupWork P) (by exact trivial)) fun group => ?_
  cases group with
  | null =>
    refine Asks.bind (asks_lift _) fun vs => Asks.bind (asks_answer (hmake vs)) fun _ =>
      Asks.bind (asks_lift _) fun _ => ?_
    exact Asks.bind (asks_info _ _) fun _ => asks_pure _
  | _ =>
    refine Asks.bind (asks_lift _) fun _ => asks_ite (Asks.bind (asks_lift _) fun _ => ?_) (asks_pure _)
    exact Asks.bind (asks_answer (P := GroupWork P) (by exact trivial)) fun _ =>
      Asks.bind (asks_info _ _) fun _ => asks_pure _

theorem groupWork_convergeTargetGroup
    (h : ∀ n, groupName i service settings b = .ok n → P (.text n) b.protocol) :
    (convergeTargetGroup i service settings b).Asks (GroupWork P) := by
  have hgroup : ∀ arn r, AtGroup arn r → GroupWork P r := fun _ _ => AtGroup.groupWork
  rw [convergeTargetGroup_eq]
  refine asks_lift_bind fun plan hplan => ?_
  refine Asks.bind (groupWork_ensureTargetGroup (h _ (planGroup_eq_ok hplan).1)) fun group => ?_
  refine Asks.bind (asks_lift _) fun arn =>
    Asks.bind (asks_convergeTags.mono fun r hr => hgroup arn r hr.atGroup) fun _ => ?_
  refine Asks.bind (asks_convergeTgAttributes.mono (hgroup arn)) fun _ => Asks.bind (asks_lift _) fun ts => ?_
  exact Asks.bind (asks_convergeTargets.mono (hgroup arn)) fun _ => asks_pure _

theorem groupWork_convergeBackends
    (h : ∀ b ∈ bs, Actions.isUsed b.port = false → ∀ n, groupName i service settings b = .ok n →
      P (.text n) b.protocol) :
    (convergeBackends i service settings there bs).Asks (GroupWork P) := by
  induction bs generalizing there with
  | nil => exact asks_pure _
  | cons b bs ih =>
    have hrest : ∀ there, (convergeBackends i service settings there bs).Asks (GroupWork P) := fun there =>
      ih fun b' hb' => h b' (List.mem_cons_of_mem b hb')
    unfold convergeBackends
    by_cases hused : Actions.isUsed b.port = true
    · rw [if_pos hused]
      exact hrest there
    rw [if_neg hused]
    refine Asks.bind (asks_lift _) fun key => asks_ite (hrest there) (Asks.bind ?_ fun group => hrest _)
    exact groupWork_convergeTargetGroup (h b List.mem_cons_self (Bool.eq_false_iff.2 hused))

/-- The target groups of a Service are made with the names and the protocols of its backends. -/
theorem groupWork_convergeTargetGroups
    (h : ∀ specs, listenerSpecs service settings = .ok specs → ∀ spec ∈ specs,
      Actions.isUsed spec.backend.port = false → ∀ n, groupName i service settings spec.backend = .ok n →
        P (.text n) spec.backend.protocol) :
    (convergeTargetGroups i service settings).Asks (GroupWork P) := by
  refine Asks.bind (asks_lift _) fun _ => asks_lift_bind fun specs hspecs => ?_
  refine Asks.bind (groupWork_convergeBackends fun b hb => ?_) fun _ =>
    Asks.bind (asks_lift _) fun _ => asks_pure _
  obtain ⟨spec, hspec, rfl⟩ := List.mem_map.1 hb
  exact h specs hspecs spec hspec

end

/-! ## The load balancer of a Service -/

/-- A request by which a load balancer is converged, where a new one has parameters
that satisfy a condition. -/
def LbWork (Q : Fields → Prop) : Request → Prop
  | .createLoadBalancer params => Q params
  | .loadBalancerNamed _ | .deleteLoadBalancer _ | .clusterSubnets _ | .subnetsNamed _ => True
  | r => ∃ arn, AtLb arn r

section

variable {Q : Fields → Prop} {i : Inputs} {service arn : Value} {settings : ServiceSettings}
  {lb : LoadBalancerConfig} {r : Request}

theorem AtLb.lbWork (h : AtLb arn r) : LbWork Q r := by
  cases r with
  | createLoadBalancer params => exact h.elim
  | loadBalancerNamed name => trivial
  | deleteLoadBalancer arn => trivial
  | clusterSubnets key => trivial
  | subnetsNamed names => trivial
  | _ => exact ⟨arn, h⟩

theorem lbWork_createLb (hQ : ∀ params, lbParams lb = .ok params → Q params) :
    (createLb lb).Asks (LbWork Q) := by
  refine asks_lift_bind fun params hparams => ?_
  have hnew : LbWork Q (.createLoadBalancer params) := hQ params hparams
  refine Asks.bind (Asks.warning (asks_answer hnew) _ _) fun live => ?_
  exact Asks.bind (asks_lift _) fun _ => Asks.bind (asks_info _ _) fun _ => asks_pure _

theorem lbWork_ensureLb (hQ : ∀ params, lbParams lb = .ok params → Q params) :
    (ensureLb lb).Asks (LbWork Q) := by
  refine Asks.bind (asks_answer (P := LbWork Q) trivial) fun live => ?_
  split
  · exact lbWork_createLb hQ
  · refine Asks.bind (asks_lift _) fun _ => asks_ite ?_ ?_
    · refine Asks.bind (asks_lift _) fun _ => Asks.bind (asks_answer (P := LbWork Q) trivial) fun _ => ?_
      exact Asks.bind (asks_info _ _) fun _ => lbWork_createLb hQ
    · refine Asks.bind (asks_lift_bind fun arn _ => ?_) fun _ => asks_pure _
      refine Asks.bind (asks_convergeIpType.mono fun _ => AtLb.lbWork) fun _ => ?_
      refine Asks.bind (asks_convergeSubnets.mono fun _ => AtLb.lbWork) fun _ => ?_
      exact Asks.bind (asks_convergeTags.mono fun _ h => h.atLb.lbWork) fun _ => asks_pure _

/-- A load balancer is made with the parameters of a configuration that passes the check of its scheme. -/
theorem lbWork_convergeLb
    (hQ : ∀ ns name n lb params, names service = .ok (ns, name) → i.identity.nameLb ns name = .ok n →
      checkScheme i.config service lb = .ok () → lb.name = .text n → lbParams lb = .ok params → Q params) :
    (convergeLb i service settings).Asks (LbWork Q) := by
  unfold convergeLb buildLb
  simp only [LawfulMonad.bind_assoc, LawfulMonad.pure_bind]
  refine asks_lift_bind fun p hnames => asks_lift_bind fun tags _ => asks_lift_bind fun n hn => ?_
  refine Asks.bind ((surveys_resolveSubnets _ _ _).asks (fun _ => trivial) fun _ => trivial) fun subnets => ?_
  refine asks_lift_bind fun _ hcheck => ?_
  refine Asks.bind (lbWork_ensureLb fun params hparams => hQ _ _ n _ params hnames hn hcheck rfl hparams)
    fun live => ?_
  refine Asks.bind (asks_lift _) fun arn => ?_
  exact Asks.bind (asks_convergeLbAttributes.mono fun _ => AtLb.lbWork) fun _ => asks_pure _

end

/-! ## The listeners of a Service -/

section

variable {P : Request → Prop} {lbArn : Value}

theorem asks_ensureListener {current : Option Value} {spec : ListenerSpec} {actions : List Fields}
    (hcreate : P (.createListener (listenerParams ("LoadBalancerArn", lbArn) spec actions)))
    (hmodify : ∀ l arn, current = some l → l.item "ListenerArn" = .ok arn →
      P (.modifyListener (listenerParams ("ListenerArn", arn) spec actions))) :
    (ensureListener lbArn current spec actions).Asks P := by
  unfold ensureListener
  split
  · refine Asks.bind (asks_answer hcreate) fun _ => Asks.bind (asks_lift _) fun _ => ?_
    exact Asks.bind (asks_info _ _) fun _ => asks_pure _
  · refine Asks.bind (asks_lift _) fun _ => asks_ite (asks_lift_bind fun arn harn => ?_) (asks_pure _)
    exact Asks.bind (asks_answer (hmodify _ arn rfl harn)) fun _ =>
      Asks.bind (asks_info _ _) fun _ => asks_pure _

theorem asks_ensureListeners {current : Table Key Value} {pairs : List (ListenerSpec × List Fields)}
    (hcreate : ∀ x ∈ pairs, P (.createListener (listenerParams ("LoadBalancerArn", lbArn) x.1 x.2)))
    (hmodify : ∀ x ∈ pairs, ∀ l arn, current.get? (portKey x.1) = some l → l.item "ListenerArn" = .ok arn →
      P (.modifyListener (listenerParams ("ListenerArn", arn) x.1 x.2))) :
    (ensureListeners lbArn current pairs).Asks P := by
  induction pairs with
  | nil => exact asks_pure _
  | cons x pairs ih =>
    obtain ⟨hx, hcreate⟩ := List.forall_mem_cons.1 hcreate
    obtain ⟨hx', hmodify⟩ := List.forall_mem_cons.1 hmodify
    exact Asks.bind (asks_ensureListener hx hx') fun _ => Asks.bind (ih hcreate hmodify) fun _ => asks_pure _

theorem asks_deleteListeners {row : List (Key × Value)}
    (h : ∀ x ∈ row, ∀ arn, x.2.item "ListenerArn" = .ok arn → P (.deleteListener arn)) :
    (deleteListeners row).Asks P := by
  induction row with
  | nil => exact asks_pure _
  | cons x row ih =>
    obtain ⟨hx, hrow⟩ := List.forall_mem_cons.1 h
    exact asks_lift_bind fun arn harn => Asks.bind (asks_answer (hx arn harn)) fun _ =>
      Asks.bind (asks_info _ _) fun _ => ih hrow

theorem asks_deleteEach {ls : List Value}
    (h : ∀ l ∈ ls, ∀ arn, l.item "ListenerArn" = .ok arn → P (.deleteListener arn)) :
    (deleteEach ls).Asks P := by
  induction ls with
  | nil => exact asks_pure _
  | cons l ls ih =>
    obtain ⟨hl, hls⟩ := List.forall_mem_cons.1 h
    exact asks_lift_bind fun arn harn => Asks.bind (asks_answer (hl arn harn)) fun _ => ih hls

/-- A request by which listeners are converged. -/
def ListenerWork : Request → Prop
  | .listeners _ | .createListener _ | .modifyListener _ | .deleteListener _ => True
  | _ => False

theorem listenerWork_convergeListeners {service : Value} {settings : ServiceSettings}
    {groups : TargetGroups} :
    (convergeListeners lbArn service settings groups).Asks ListenerWork := by
  refine Asks.bind (asks_lift _) fun _ => Asks.bind (asks_lift _) fun _ => ?_
  refine Asks.bind (asks_answer (P := ListenerWork) trivial) fun _ => Asks.bind (asks_lift _) fun _ => ?_
  refine Asks.bind (asks_ensureListeners (fun _ _ => trivial) fun _ _ _ _ _ _ => trivial) fun _ =>
    Asks.bind (asks_lift _) fun _ => ?_
  exact Asks.bind (asks_deleteListeners fun _ _ _ _ => trivial) fun _ => asks_pure _

end

/-! ## Deletion -/

theorem asks_deleteTargetGroups {P : Request → Prop} {ks : List Key}
    (h : ∀ k ∈ ks, P (.deleteTargetGroup k.toValue)) :
    (deleteTargetGroups ks).Asks P := by
  induction ks with
  | nil => exact asks_pure _
  | cons k ks ih =>
    obtain ⟨hk, hks⟩ := List.forall_mem_cons.1 h
    exact Asks.bind (asks_answer hk) fun _ => Asks.bind (asks_info _ _) fun _ => ih hks

/-! ## Configurations -/

/-- A configuration of a load balancer with a name. -/
structure LbFor (n : String) (lb : LoadBalancerConfig) : Prop where
  name : lb.name = .text n
  tags : ∃ tags : Table String Value, lb.tags = tags.toObject
  subnets : ∃ subnets, lb.subnets = .list subnets

/-- The parameters of a new load balancer. -/
theorem LbFor.params {n : String} {lb : LoadBalancerConfig} {params : Fields} (h : LbFor n lb)
    (hp : lbParams lb = .ok params) :
    Fields.item params "Name" = .ok (.text n) ∧
      ∃ subnets tags, (Fields.get params "Subnets").elementsIfAny = .ok subnets ∧
        readTags (Fields.get params "Tags") = .ok tags := by
  obtain ⟨hname, ⟨tags, htags⟩, ⟨subnets, hsubnets⟩⟩ := h
  obtain ⟨vs, hvs, hread⟩ := readTags_tagList tags
  have helements : (Value.list subnets).elementsIfAny = .ok subnets := by
    unfold Value.elementsIfAny
    cases subnets <;> rfl
  unfold lbParams at hp
  rw [hsubnets, htags, hname, hvs] at hp
  cases hp
  exact ⟨rfl, subnets, _, helements, hread⟩

end Converge

end Balancer
