import Balancer.Proofs.Annotations
import Balancer.Proofs.Converge.Strict

/-!
# Idempotence

`convergeService_idempotent` : after a reconcile that succeeds, a second one with the same store succeeds
with the same result, changes nothing and records nothing. Every difference that a reconcile looks for is
gone once it was written, whatever the form in which the cloud keeps it, as long as what is compared equals
itself (`DefiniteInputs`).
-/

namespace Balancer

set_option autoImplicit false

namespace Converge

open Cluster Routing

/-! ## Tags that equal themselves -/

section

variable {t u : Table String Value} {k : String} {v : Value} {es : Fields}

theorem definite_iff : Definite t.entries ↔ ∀ k v, t.get? k = some v → v.same v = true :=
  ⟨fun h k v hv => h (k, v) ((Table.mem_entries_iff t k v).2 hv),
    fun h e he => h e.1 e.2 ((Table.mem_entries_iff t e.1 e.2).1 he)⟩

theorem definite_ofList (h : ∀ e ∈ es, e.2.same e.2 = true) : Definite (Table.ofList es).entries := by
  refine definite_iff.2 fun k v hv => ?_
  rw [Table.get?_ofList] at hv
  obtain ⟨k', -, he⟩ := Entries.mem_of_find? hv
  exact h _ (List.mem_reverse.1 he)

theorem Definite.update (ht : Definite t.entries) (hu : Definite u.entries) :
    Definite (t.update u).entries := by
  refine definite_iff.2 fun k v hv => ?_
  rw [Table.get?_update] at hv
  cases hk : u.get? k with
  | some w =>
    rw [hk] at hv
    cases hv
    exact definite_iff.1 hu k v hk
  | none =>
    rw [hk] at hv
    exact definite_iff.1 ht k v hv

theorem Definite.insert (ht : Definite t.entries) (hv : v.same v = true) :
    Definite (t.insert k v).entries := by
  refine definite_iff.2 fun k' w hw => ?_
  rcases Table.get?_insert_eq_some_iff.1 hw with ⟨-, rfl⟩ | ⟨-, hw⟩
  · exact hv
  · exact definite_iff.1 ht k' w hw

theorem definite_texts (t : Table String String) : Definite (t.map .text).entries := by
  refine definite_iff.2 fun k v hv => ?_
  rw [Table.get?_map] at hv
  obtain ⟨s, -, rfl⟩ := Option.map_eq_some_iff.1 hv
  exact Value.same_self_text s

end

/-! ## What a reconcile compares -/

/-- What a reconcile compares equals itself: the tags of the identity and the settings of a Service. -/
structure DefiniteInputs (i : Inputs) (service : Value) : Prop where
  tags : Definite i.identity.tags.entries
  settings : ∀ settings, settingsOf i service = .ok settings → settings.Definite

section

variable {i : Inputs} {service : Value} {settings : ServiceSettings} {b : Backend} {plan : GroupPlan}
  {usual tags : Table String Value} {n clusterName : String} {ns name : Value} {d : Deployment}
  {lb : LoadBalancer} {u : Resources}

theorem definite_serviceTags (h : Definite usual.entries) (hns : ns.same ns = true)
    (hname : name.same name = true) :
    Definite (Identity.serviceTags usual clusterName ns name).entries := by
  refine ((h.update (definite_ofList ?_)).insert (Value.same_self_text _)).insert (Value.same_self_text _)
  simp [hns, hname]

theorem definite_tagLb (h : Definite i.identity.tags.entries) (hns : ns.same ns = true)
    (hname : name.same name = true) (ht : i.identity.tagLb ns name = .ok tags) : Definite tags.entries := by
  obtain ⟨clusterName, -, ht⟩ := bind_eq_ok_iff.1 ht
  cases ht
  exact (definite_serviceTags h hns hname).insert (Value.same_self_text _)

theorem definite_targetGroupTags (h : Definite i.identity.tags.entries) (hns : ns.same ns = true)
    (hname : name.same name = true) (hservice : b.service.same b.service = true)
    (hport : b.port.same b.port = true) (ht : targetGroupTags i ns name settings b = .ok tags) :
    Definite tags.entries := by
  obtain ⟨shared, hshared, ht⟩ := bind_eq_ok_iff.1 ht
  obtain ⟨clusterName, -, hshared⟩ := bind_eq_ok_iff.1 hshared
  cases hshared
  cases ht
  refine ((definite_serviceTags h hns hname).update (definite_ofList ?_)).update (definite_texts _)
  simp [hservice, hport]

/-- A name is made of texts, which equal themselves. -/
theorem same_of_nameLb (h : i.identity.nameLb ns name = .ok n) :
    ns.same ns = true ∧ name.same name = true := by
  obtain ⟨_, -, h⟩ := bind_eq_ok_iff.1 h
  obtain ⟨s, hns, h⟩ := bind_eq_ok_iff.1 h
  obtain ⟨s', hname, -⟩ := bind_eq_ok_iff.1 h
  rw [Value.eq_text_of_asText hns, Value.eq_text_of_asText hname]
  exact ⟨Value.same_self_text s, Value.same_self_text s'⟩

theorem same_of_nameTg {backend port targetType protocol : Value}
    (h : i.identity.nameTg ns name backend port targetType protocol = .ok n) :
    (ns.same ns = true ∧ name.same name = true) ∧ backend.same backend = true ∧ port.same port = true := by
  obtain ⟨_, -, h⟩ := bind_eq_ok_iff.1 h
  obtain ⟨s, hns, h⟩ := bind_eq_ok_iff.1 h
  obtain ⟨s', hname, h⟩ := bind_eq_ok_iff.1 h
  obtain ⟨s₂, hbackend, h⟩ := bind_eq_ok_iff.1 h
  obtain ⟨s₃, hport, -⟩ := bind_eq_ok_iff.1 h
  rw [Value.eq_text_of_asText hns, Value.eq_text_of_asText hname, Value.eq_text_of_textFor hbackend,
    Value.eq_text_of_textFor hport]
  simp

theorem definite_healthCheck (h : settings.Definite) (port : String) :
    ∀ f ∈ healthCheck settings (.text port), DefiniteSetting f := by
  have hsingle : ∀ f : String × Value, f.1 ≠ "Matcher" → f.2.same f.2 = true → DefiniteSetting f := by
    intro f hf hs
    rw [DefiniteSetting, if_neg hf]
    exact hs
  intro f hf
  rcases List.mem_append.1 hf with hf | hf
  · simp only [List.mem_cons, List.not_mem_nil, or_false] at hf
    rcases hf with rfl | rfl | rfl | rfl | rfl <;> exact hsingle _ (by simp) (by simp)
  · split at hf
    · simp only [List.mem_cons, List.not_mem_nil, or_false] at hf
      rcases hf with rfl | rfl
      · exact hsingle _ (by simp) h.path
      · rw [DefiniteSetting, if_pos rfl]
        intro code hcode
        cases hcode
        exact h.successCodes
    · cases hf

theorem definite_planGroup (hi : DefiniteInputs i service) (hset : settingsOf i service = .ok settings)
    (h : planGroup i service settings b = .ok plan) : plan.Definite := by
  obtain ⟨hname, ⟨port, hcheck⟩, ns, name, hn, htags⟩ := planGroup_eq_ok h
  constructor
  · rw [hcheck]
    exact definite_healthCheck (hi.settings settings hset) port
  · obtain ⟨⟨ns', name'⟩, hn', hname⟩ := bind_eq_ok_iff.1 hname
    rw [hn] at hn'
    cases hn'
    obtain ⟨⟨hns, hname⟩, hservice, hport⟩ := same_of_nameTg hname
    exact definite_targetGroupTags hi.tags hns hname hservice hport htags

/-- Everything that is compared of a Service equals itself. -/
theorem ServiceMet.definite (h : ServiceMet i service d u) (htext : TextSubnets u)
    (hi : DefiniteInputs i service) (hactions : TextActions d.settings) : d.Definite i service where
  tags := by
    obtain ⟨ns, name, tags, plan, -, hname, htags, hplan, -, -, hconfig, -⟩ :=
      exists_plan htext h.lb.planned.yields
    obtain rfl := LbPlan.eq_of_config hconfig
    obtain ⟨hns, hname⟩ := same_of_nameLb hname
    rw [hplan]
    exact (definite_tagLb hi.tags hns hname htags).update (definite_texts _)
  groups := fun _ _ hplan => definite_planGroup hi h.settings hplan
  listeners := by
    intro e he
    refine ⟨?_, fun ns hns => h.asks.sameActions_self hactions (textArns_of_ready h.groups) he hns⟩
    rcases protocol_of_listenerSpecs h.asks.1 (List.of_mem_zip he).1 with hprotocol | ⟨s, hprotocol⟩
    · rw [hprotocol]
      exact (hi.settings _ h.settings).backendProtocol
    · rw [hprotocol]
      exact Value.same_self_text s

/-- After a reconcile that succeeds, another one succeeds with the same result and does nothing. -/
theorem convergeService_idempotent {σ : Type} (gate : Gate σ) {c c' : σ} {m m' : Memory}
    (hs : m.resources.WellFormed) (htext : TextSubnets m.resources) (hfilled : FilledSubnets m.resources)
    (hd : DistinctNames i service) (hactions : ∀ settings, settingsOf i service = .ok settings →
      TextActions settings) (hi : DefiniteInputs i service)
    (h : (convergeService i service).run (Memory.cloud gate) (c, m) = (.ok lb, (c', m'))) :
    (convergeService i service).run (Memory.cloud Gate.free) ((), m') = (.ok lb, ((), m')) := by
  obtain ⟨rs, -, hends⟩ := (strict_convergeService i service).ends_run gate h
  obtain ⟨d, old, hmet, hu, rfl, -⟩ := yields_convergeService hs htext hd hends.yields
  obtain ⟨hsubnets, -⟩ := Program.always_ground _ _ _ hends.yields.visits
  have htext' : TextSubnets m'.resources := fun v hv => htext v (hsubnets ▸ hv)
  have hfilled' : FilledSubnets m'.resources := fun v hv => hfilled v (hsubnets ▸ hv)
  have hempty : "" ∉ d.plan.subnets := by
    obtain ⟨ns, name, tags, plan, -, -, -, -, -, -, hconfig, hempty⟩ :=
      exists_plan htext' hmet.lb.planned.yields
    obtain rfl := LbPlan.eq_of_config hconfig
    exact hempty hfilled'
  have hdefinite := hmet.definite htext' hi (hactions _ hmet.settings)
  obtain ⟨lb, rs', hagain, rfl, hrs⟩ := rests_convergeService hu hmet
  rw [hrs ⟨hdefinite, hempty⟩] at hagain
  exact Program.run_free_eq_ok_iff.2 ⟨[], (List.append_nil _).symm, hagain⟩

theorem sample_definite : DefiniteInputs sampleInputs sampleService where
  tags := fun _ he => (List.not_mem_nil he).elim
  settings := by
    intro settings h
    have hparse : settingsOf sampleInputs sampleService =
        ServiceSettings.parse sampleInputs.config (.object [("example.com/subnets", .text "subnet-a")]) := rfl
    rw [hparse] at h
    refine ServiceSettings.definite_of_parse (Value.same_self_text _)
      (fun name v => Annotations.texts_of_raw ?_) h
    simp

/-- The sample Service is reconciled once and for all. -/
theorem sample_idempotent : ∃ lb m,
    (convergeService sampleInputs sampleService).run (Memory.cloud Gate.free)
      ((), ⟨{}, []⟩) = (.ok lb, ((), m)) ∧
      (convergeService sampleInputs sampleService).run (Memory.cloud Gate.free) ((), m) =
        (.ok lb, ((), m)) := by
  obtain ⟨lb, m, h⟩ := sample_succeeds
  have hnone : ∀ v ∈ ({} : Resources).subnets, False := fun _ hv => List.not_mem_nil hv
  refine ⟨lb, m, h, convergeService_idempotent Gate.free Resources.wellFormed_empty
    (fun v hv => (hnone v hv).elim)
    (fun v hv => (hnone v hv).elim) sample_distinctNames sample_textActions sample_definite h⟩

end

end Converge

end Balancer
