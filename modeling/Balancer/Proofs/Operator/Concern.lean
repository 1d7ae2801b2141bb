import Balancer.Proofs.Converge.Reads
import Balancer.Proofs.Operator.Change
import Balancer.Proofs.History

/-!
# Events that do not concern a key

* `wantedAt_eq` : what is reconciled for a key;
* `SameReads i j k` : all that a sync of a key reads is the same; then the syncs agree (`SameReads.agree`);
* `unconcerned_same` : so it is before and after an event that does not concern the key.
-/

namespace Balancer

set_option autoImplicit false

open Cluster Value Routing Converge

/-- All that is read for a key is the same; what is not of the class is not read. -/
structure SameReads (ordered : Prop) (i j : Inputs) (k : String) : Prop where
  identity : i.identity = j.identity
  serviceClass : i.config.serviceClass = j.config.serviceClass
  service : Option.Rel (SameService ordered) (i.classed k) (j.classed k)
  aspects : (j.classed k).isSome → ∀ a : Aspect, a.Same i j k

section

variable {ordered : Prop} {i j : Inputs} {key service v w : Value} {k : String} {α : Type}

/-! ## The two kinds of syncs -/

theorem sync_of_none (h : wantedAt i key = .ok none) : sync i key = (do
    deleteService i key
    return none) := by
  rw [sync_eq, h]
  rfl

theorem sync_of_error {e : Error} (h : wantedAt i key = .error e) : sync i key = throw e := by
  rw [sync_eq, h]
  rfl

theorem sync_of_some (h : wantedAt i key = .ok (some service)) : sync i key = (do
    Program.notice (.subject service)
    let lb ← convergeService i service
    publish i service lb
    return some lb) := by
  rw [sync_eq, h]
  rfl

theorem deleteService_congr (h : i.identity = j.identity) : deleteService i = deleteService j := by
  unfold deleteService findLb deleteAllTargetGroups
  rw [h]

/-- Whether a Service is being deleted. -/
def isLeaving (service : Value) : Bool := (metaOf service "deletionTimestamp").holds

theorem wanted?_eq (h : IsService ordered v) : wanted? i (some v) =
    .ok ((some v).filter fun v => isClassed i.config.serviceClass v && !isLeaving v) := by
  obtain ⟨fs, ms, rfl, hms, -, hmeta⟩ := h.named.exists_metadata
  have hitem : (Value.object fs).item "metadata" = .ok (.object ms) := by
    rw [item_object, Fields.item_of_get (by rw [hms]; exact nofun), hms]
  unfold wanted?
  dsimp only
  rw [hitem, h.isOfClass_ok, Option.filter_some, isLeaving, hmeta]
  show (if (Fields.get ms "deletionTimestamp").holds = true then _ else _) = _
  cases (Fields.get ms "deletionTimestamp").holds with
  | true => rw [Bool.not_true, Bool.and_false]; rfl
  | false =>
    rw [Bool.not_false, Bool.and_true]
    cases isClassed i.config.serviceClass (.object fs) with
    | true => rfl
    | false => rfl

/-- What is reconciled for a key: its Service, if it is of the class and not being deleted. -/
theorem wantedAt_eq (hi : i.store.WellFormed ordered) (k : String) :
    wantedAt i (.text k) = .ok ((i.classed k).filter fun v => !isLeaving v) := by
  show wanted? i (i.store.services.get? (.text k)) = _
  unfold Inputs.classed
  cases hk : i.store.services.get? (.text k) with
  | none => rfl
  | some v =>
    rw [wanted?_eq (hi.of_get? .service nofun hk).1, Option.filter_filter]

/-- No Service has a key that is no text. -/
theorem wantedAt_of_ne_text (hi : i.store.WellFormed ordered) (h : ∀ k, key ≠ .text k) :
    wantedAt i key = key.key >>= fun _ => .ok none := by
  unfold wantedAt Store.find?
  cases hkey : key.key with
  | error e => rfl
  | ok κ =>
    show wanted? i (i.store.services.get? κ) = _
    cases hk : i.store.services.get? κ with
    | none => rfl
    | some v =>
      obtain ⟨own, rfl, -⟩ := hi.objectKey .service nofun hk
      exact absurd (eq_toValue_of_key hkey) (h own)

/-! ## Syncs that read the same -/

theorem demands_of_same {k : String} (hi : i.store.services.get? (.text k) = some v)
    (hj : j.store.services.get? (.text k) = some w)
    (h : SameService ordered v w) (hkey : objectKey v = .ok (.text k)) (hconfig : i.config = j.config) :
    Demands ordered (demanded i v) (demanded j w) := by
  have hdemanded : ∀ {i : Inputs} {v : Value}, i.store.services.get? (.text k) = some v →
      IsService ordered v →
      objectKey v = .ok (.text k) →
      demanded i v = ServiceSettings.parse i.config (metaOf v "annotations") := by
    intro i v hget hv hkey
    obtain ⟨ns, n, -, -, hnames, hown⟩ := hv.named.exists_names
    rw [hkey] at hown
    cases hown
    obtain ⟨m, hm, hannotations⟩ := hv.named.get_metadata "annotations"
    have hserviceKey : serviceKey v = .ok (.text (ns ++ "/" ++ n)) := bind_eq_ok_iff.2 ⟨_, hnames, rfl⟩
    unfold demanded
    rw [hserviceKey]
    show i.store.settings i.config (.text _) = _
    rw [Store.settings_of_get? hget,
      show Cluster.annotations v = .ok (metaOf v "annotations") from bind_eq_ok_iff.2 ⟨m, hm, hannotations⟩]
    rfl
  rw [hdemanded hi h.left hkey, hdemanded hj h.right (h.routes.objectKey.symm.trans hkey), hconfig]
  exact demands_of_reordered _ h.annotations fun hordered =>
    h.annotations.eq (h.left.inOrder hordered) (h.right.inOrder hordered)

theorem SameReads.wanted (h : SameReads ordered i j k) : Option.Rel (SameService ordered)
    ((i.classed k).filter fun v => !isLeaving v) ((j.classed k).filter fun v => !isLeaving v) :=
  optionRel_filter h.service fun _ _ hsame => congrArg (!·.holds) hsame.deletionTimestamp

theorem SameReads.sameInputs (h : SameReads ordered i j k) (hi : i.store.WellFormed ordered)
    (hv : i.classed k = some v) (hw : j.classed k = some w) (hsame : SameService ordered v w) :
    SameInputs i j v w := by
  have haspects := h.aspects (by rw [hw]; rfl)
  have hkey := (hi.of_get? .service nofun (Option.filter_eq_some_iff.1 hv).1).2
  refine ⟨haspects .config, h.identity, hsame.routes,
    fun key hown => ⟨k, ?_, haspects .endpoints⟩, haspects .nodes⟩
  rw [hkey] at hown
  exact (Except.ok.inj hown).symm

/-- What is published of a load balancer is only heard of. -/
theorem quiet_published (hv : IsService ordered v) (lb : LoadBalancer) :
    (publish i v lb >>= fun _ => pure (some lb)).quiet = pure (some lb) := by
  obtain ⟨host, hhost⟩ := hv.status
  obtain ⟨ns, n, -, -, hnames, -⟩ := hv.named.exists_names
  rw [Program.quiet_bind, quiet_publish ⟨_, hnames⟩ hhost]
  rfl

/-- Syncs of a key that read the same ask the same and end alike. -/
theorem SameReads.agree (h : SameReads ordered i j k) (hi : i.store.WellFormed ordered)
    (hj : j.store.WellFormed ordered) :
    (sync i (.text k)).Agree ordered (sync j (.text k)) := by
  have hwanted := wantedAt_eq hi k
  have hwanted' := wantedAt_eq hj k
  have hrel := h.wanted
  generalize hx : (i.classed k).filter (fun v => !isLeaving v) = x at hwanted hrel
  generalize hy : (j.classed k).filter (fun v => !isLeaving v) = y at hwanted' hrel
  cases hrel with
  | none =>
    refine .of_eq ?_
    rw [sync_of_none hwanted, sync_of_none hwanted', deleteService_congr h.identity]
  | some hsame =>
    obtain ⟨hv, -⟩ := Option.filter_eq_some_iff.1 hx
    obtain ⟨hw, -⟩ := Option.filter_eq_some_iff.1 hy
    obtain ⟨hget, -⟩ := Option.filter_eq_some_iff.1 hv
    obtain ⟨hget', -⟩ := Option.filter_eq_some_iff.1 hw
    have hinputs := h.sameInputs hi hv hw hsame
    have hdemands := demands_of_same hget hget' hsame (hi.of_get? .service nofun hget).2 hinputs.config
    rw [sync_of_some hwanted, sync_of_some hwanted']
    show (Program.tell _ _ : Program (Option LoadBalancer)).Agree ordered (Program.tell _ _)
    refine (agree_convergeService hinputs hdemands).bind fun lb => ?_
    rw [quiet_published hsame.left, quiet_published hsame.right]

/-- Syncs of what is no key of a Service. -/
theorem agree_of_ne_text (hi : i.store.WellFormed ordered) (hj : j.store.WellFormed ordered)
    (hidentity : i.identity = j.identity) (h : ∀ k, key ≠ .text k) :
    (sync i key).Agree ordered (sync j key) := by
  have hwanted := wantedAt_of_ne_text hi h
  have hwanted' := wantedAt_of_ne_text hj h
  refine .of_eq ?_
  cases hkey : key.key with
  | error e =>
    rw [hkey] at hwanted hwanted'
    rw [sync_of_error hwanted, sync_of_error hwanted']
  | ok κ =>
    rw [hkey] at hwanted hwanted'
    rw [sync_of_none hwanted, sync_of_none hwanted', deleteService_congr hidentity]

end

namespace Operator

section

variable {ordered : Prop} {o o' : Operator} {e : Change} {old : Option Value} {k : String}

theorem SameBase.inputs (h : SameBase o o') : o.inputs.identity = o'.inputs.identity ∧
    o.inputs.config.serviceClass = o'.inputs.config.serviceClass := ⟨h.identity.symm, h.serviceClass.symm⟩

/-- What is read for a key that an event does not concern stays the same. -/
theorem Effect.sameReads {keys : List Value} (h : Effect ordered o e k old o')
    (hkeys : o'.keysOf old e = .ok keys) (hk : .text k ∉ keys) :
    SameReads ordered o.inputs o'.inputs k := by
  have hnot : ∀ keys', o'.keysOf old e = .ok keys' → .text k ∉ keys' := by
    intro keys' hkeys'
    rw [hkeys] at hkeys'
    cases hkeys'
    exact hk
  refine ⟨h.base.inputs.1, h.base.inputs.2, h.service.resolve_left fun hannounces => ?_, fun hclassed a =>
    (h.aspects a).resolve_right fun hconcerns => ?_⟩
  · obtain ⟨keys', hkeys', hmem⟩ := hannounces o' h.base
    exact hnot keys' hkeys' hmem
  · obtain ⟨keys', hkeys', hmem⟩ := hconcerns o' h.base h.wellFormed hclassed
    exact hnot keys' hkeys' hmem

/-- An event concerns every key for which it changes what a sync does: before and after it, a sync of another
key asks the same of any cloud and ends alike. If the annotations are not in the order of their names and
several declared actions cannot be read, the two ends may name different ones of these. -/
theorem unconcerned_same (ho : o.store.WellFormed ordered) (he : e.IsWellFormed ordered) :
    ∃ old o' keys, o.write e = .ok (old, o') ∧ o'.keysOf old e = .ok keys ∧ ∀ key ∉ keys,
      ∀ {σ : Type} (c : Cloud σ), c.IsDeaf → ∀ s,
      ((sync o.inputs key).run c s).2 = ((sync o'.inputs key).run c s).2 ∧
        SameEnd ordered ((sync o.inputs key).run c s).1 ((sync o'.inputs key).run c s).1 := by
  obtain ⟨old, o', hwrite, heffect⟩ := write_effect ho he ""
  obtain ⟨keys, hkeys, -⟩ := heffect.finds o' heffect.base heffect.wellFormed
  refine ⟨old, o', keys, hwrite, hkeys, fun key hkey σ c hc s => ?_⟩
  have hagree : (sync o.inputs key).Agree ordered (sync o'.inputs key) := by
    by_cases htext : ∃ k, key = .text k
    · obtain ⟨k, rfl⟩ := htext
      obtain ⟨old', o'', hwrite', heffect'⟩ := write_effect ho he k
      rw [hwrite] at hwrite'
      cases hwrite'
      exact (heffect'.sameReads hkeys hkey).agree ho heffect.wellFormed
    · exact agree_of_ne_text ho heffect.wellFormed heffect.base.inputs.1 fun k hk => htext ⟨k, hk⟩
  exact hagree.run hc s

end

/-! ### Example -/

/-- The Service `default/web` with a status. -/
def webService (status : Fields) : Value :=
  .object [("metadata", .object [("namespace", .text "default"), ("name", .text "web"),
      ("annotations", .object [("kubernetes.io/service.class", .text "nlb"),
        ("nlb.service.kubernetes.io/subnets", .text "subnet-a"),
        ("nlb.service.kubernetes.io/target-type", .text "instance")])]),
    ("spec", .object
      [("ports", .list [.object [("name", .text "http"), ("port", .int 80), ("nodePort", .int 31000)]])]),
    ("status", .object status)]

/-- A status that publishes a host name. -/
def publishedStatus : Fields :=
  [("loadBalancer", .object [("ingress", .list [.object [("hostname", .text "web.elb.amazonaws.com")]])])]

theorem isService_webService {status : Fields} (h : ∃ host, publishedHost (webService status) = .ok host) :
    IsService True (webService status) where
  named := ⟨⟨⟨"web", rfl, by decide⟩, .inr ⟨"default", rfl, by decide⟩⟩, rfl⟩
  annotations := .inr ⟨_, rfl, by decide, by simp⟩
  inOrder := by
    rintro - fs hfs
    cases hfs
    decide
  deletionTimestamp := trivial
  spec := .inr ⟨_, rfl, by decide⟩
  ports := .inr ⟨_, rfl, List.forall_mem_singleton.2 ⟨_, rfl, by decide, by decide⟩⟩
  status := h

/-- An operator that knows of one Service. -/
def knowingWeb : Operator where
  config := { clusterName := .text "main", vpcId := .text "vpc-1", nameStem := .text "nlb" }
  identity := mainIdentity
  store := { services := .ofList [(.text "default/web", webService [])] }

theorem wellFormed_knowingWeb : knowingWeb.store.WellFormed True := by
  have hservice : IsService True (webService []) := isService_webService ⟨_, rfl⟩
  obtain ⟨old, t, hrecord, ht⟩ :=
    (Store.wellFormed_empty True).record (o := { knowingWeb with store := {} }) .service .added hservice
  cases hrecord
  exact ht

/-- The publication of a host name concerns no key: a sync of the Service asks the same of a cloud that
is new as it did before.
-/
theorem published_unconcerned :
    ∃ o', knowingWeb.write (.object .service .modified (webService publishedStatus)) =
      .ok (some (webService []), o') ∧
    ∀ m, ((sync knowingWeb.inputs (.text "default/web")).run (Memory.cloud Gate.free) ((), m)).2 =
      ((sync o'.inputs (.text "default/web")).run (Memory.cloud Gate.free) ((), m)).2 := by
  have he : (Change.object .service .modified (webService publishedStatus)).IsWellFormed True :=
    isService_webService ⟨_, rfl⟩
  obtain ⟨old, o', keys, hwrite, hkeys, hsame⟩ := unconcerned_same wellFormed_knowingWeb he
  have hwritten : knowingWeb.write (.object .service .modified (webService publishedStatus)) =
      .ok (some (webService []), _) :=
    rfl
  rw [hwritten] at hwrite
  cases hwrite
  cases hkeys
  exact ⟨_, rfl, fun m => (hsame _ List.not_mem_nil _ (fun _ _ => rfl) _).1⟩

end Operator

end Balancer
