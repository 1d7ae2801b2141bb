import Balancer.Proofs.Routing
import Balancer.Proofs.Value
import Balancer.Routing.Target

/-!
# Which port the targets of a backend come from

A backend names its port by the digits of the number, and a port of a Service may be called by digits as well.

* `isReferred_decimal` : digits refer to the ports that have the number and to those that
  are called by the digits;
* `Shadowed ps n` : a port of another number is called by the digits of `n` and stands in front of
  all ports of number `n`; `number_findPort_iff` : the port that is found has the number just if
  the number is not shadowed;
* `IsTargetOf` : a target for a port; `isTargetOf_of_resolveTargets` : those of a backend are
  for the port that is found;
* `port_of_backend_iff` : so they are for the backend's own port just if its number is not shadowed.
-/

namespace Balancer

set_option autoImplicit false

namespace Routing

open Cluster

/-- A port with an integer as its number. -/
def HasNumber (port : Value) (n : Int) : Prop := port.item "port" = .ok (.int n)

/-- A port with a text as its name. -/
def IsCalled (port : Value) (s : String) : Prop := port.get "name" = .ok (.text s)

/-- A port of another number is called by the digits of `n`, in front of all ports of number `n`. -/
def Shadowed (ps : List Value) (n : Int) : Prop :=
  ∃ front port rest, ps = front ++ port :: rest ∧ IsCalled port (Text.decimal n) ∧ ¬ HasNumber port n ∧
    ∀ p ∈ front, ¬ HasNumber p n

/-- The subsets of the Endpoints of a Service. -/
def endpointSubsets (store : Store) (service : Value) : Except Error (List Value) := do
  (← (← store.endpointsOf (← objectKey service)).get "subsets").elementsIfAny

/-- A target for a port of a Service: its node port on an instance, or the endpoint port that belongs to it on
an address of the same subset. -/
def IsTargetOf (store : Store) (service port type : Value) (t : Target) : Prop :=
  if type.same (.text "instance") then
    ∃ nodePort n, port.get "nodePort" = .ok nodePort ∧ nodePort.integer = .ok n ∧ t.port = .int n
  else
    ∃ subsets subset p n addresses address, endpointSubsets store service = .ok subsets ∧ subset ∈ subsets ∧
      subsetPort port subset = .ok p ∧ p ≠ .null ∧ portNumber p = .ok n ∧ t.port = .int n ∧
      (subset.get "addresses" >>= Value.elementsIfAny) = .ok addresses ∧ address ∈ addresses ∧
      address.item "ip" = .ok t.id

section

variable {service port type : Value} {settings : ServiceSettings} {specs : List ListenerSpec}
  {spec : ListenerSpec} {ps vs : List Value} {v : Value} {n m : Int} {store : Store} {b : Backend}
  {targets : List Target}

/-! ## The port that is found -/

theorem firstThat_eq_some {p : Value → Except Error Bool} (h : firstThat p vs = .ok (some v)) :
    ∃ front rest, vs = front ++ v :: rest ∧ p v = .ok true ∧ ∀ u ∈ front, p u = .ok false := by
  induction vs with
  | nil => cases h
  | cons u vs ih =>
    obtain ⟨r, hr, h⟩ := bind_eq_ok_iff.1 h
    cases r with
    | true =>
      cases h
      exact ⟨[], vs, rfl, hr, by simp⟩
    | false =>
      obtain ⟨front, rest, rfl, hv, hfront⟩ := ih h
      exact ⟨u :: front, rest, rfl, hv, List.forall_mem_cons.2 ⟨hr, hfront⟩⟩

theorem exists_firstThat {p : Value → Except Error Bool} (h : ∀ u ∈ vs, ∃ r, p u = .ok r) (hv : v ∈ vs)
    (hp : p v = .ok true) :
    ∃ u, firstThat p vs = .ok (some u) := by
  induction vs with
  | nil => cases hv
  | cons u vs ih =>
    obtain ⟨⟨r, hr⟩, hvs⟩ := List.forall_mem_cons.1 h
    cases r with
    | true => exact ⟨u, bind_eq_ok_iff.2 ⟨true, hr, rfl⟩⟩
    | false =>
      have hne : v ≠ u := by
        rintro rfl
        rw [hp] at hr
        cases hr
      obtain ⟨w, hw⟩ := ih hvs ((List.mem_cons.1 hv).resolve_left hne)
      exact ⟨w, bind_eq_ok_iff.2 ⟨false, hr, hw⟩⟩

theorem HasNumber.eq (h : HasNumber port n) (h' : HasNumber port m) : n = m := by
  unfold HasNumber at h h'
  rw [h] at h'
  cases h'
  rfl

/-- Digits refer to the ports of their number and to those that are called by them. -/
theorem isReferred_decimal (h : HasNumber port m) (n : Int) :
    ∃ r, isReferred (.text (Text.decimal n)) port = .ok r ∧
      (r = true ↔ m = n ∨ IsCalled port (Text.decimal n)) := by
  obtain ⟨fs, rfl⟩ : ∃ fs, port = .object fs := by
    cases port with
    | object fs => exact ⟨fs, rfl⟩
    | _ => cases h
  have hnumber : isReferred (.text (Text.decimal n)) (.object fs) =
      if n = m then .ok true else .ok ((Fields.get fs "name").same (.text (Text.decimal n))) := by
    unfold isReferred
    rw [Value.get_object, Fields.get_of_item h]
    simp only [bind, Except.bind, Value.same_text, beq_iff_eq]
    exact if_congr Text.decimal_injective.eq_iff rfl rfl
  rw [hnumber]
  by_cases hn : n = m
  · rw [if_pos hn]
    exact ⟨true, rfl, iff_of_true rfl (.inl hn.symm)⟩
  · rw [if_neg hn]
    refine ⟨_, rfl, ?_⟩
    rw [Value.same_text_iff, or_iff_right (Ne.symm hn), IsCalled, Value.get_object, Except.ok.injEq]

theorem not_isReferred_decimal (h : HasNumber port m)
    (href : isReferred (.text (Text.decimal n)) port = .ok false) :
    ¬ HasNumber port n ∧ ¬ IsCalled port (Text.decimal n) := by
  obtain ⟨r, hr, hiff⟩ := isReferred_decimal h n
  rw [href] at hr
  cases hr
  obtain ⟨hne, hcalled⟩ := not_or.1 (mt hiff.2 (by decide))
  exact ⟨fun hn => hne (h.eq hn), hcalled⟩

/-- The first port that digits refer to shadows their number unless it has the number. -/
theorem shadowed_append_iff {front rest : List Value}
    (hfront : ∀ p ∈ front, ¬ HasNumber p n ∧ ¬ IsCalled p (Text.decimal n))
    (hport : HasNumber port n ∨ IsCalled port (Text.decimal n)) :
    Shadowed (front ++ port :: rest) n ↔ ¬ HasNumber port n := by
  constructor
  · rintro ⟨front', q, rest', heq, hcalled, hq, hfront'⟩ hn
    -- the port of the name `n` can stand neither in front of the first port referred to, nor in
    -- its place, nor behind it
    rcases List.append_eq_append_iff.1 heq with ⟨_ | ⟨d, ds⟩, rfl, hds⟩ | ⟨_ | ⟨d, ds⟩, rfl, hds⟩
    · exact hq ((List.cons.inj hds).1 ▸ hn)
    · exact hfront' port (by simp [(List.cons.inj hds).1]) hn
    · exact hq ((List.cons.inj hds).1 ▸ hn)
    · exact (hfront q (by simp [(List.cons.inj hds).1])).2 hcalled
  · intro hn
    exact ⟨front, port, rest, rfl, hport.resolve_left hn, hn, fun p hp => (hfront p hp).1⟩

/-- Where no port is called by digits, no number is shadowed. -/
theorem not_shadowed (h : ∀ p ∈ ps, ¬ IsCalled p (Text.decimal n)) : ¬ Shadowed ps n := by
  rintro ⟨front, port, rest, rfl, hcalled, -⟩
  exact h port (List.mem_append_right _ List.mem_cons_self) hcalled

/-- The port that is found by digits has their number just if the number is not shadowed. -/
theorem number_findPort_iff (hports : ports service = .ok ps) (hnumbers : ∀ p ∈ ps, ∃ n, HasNumber p n)
    (hn : ∃ p ∈ ps, HasNumber p n) :
    ∃ p m, findPort service (.text (Text.decimal n)) = .ok p ∧ p ∈ ps ∧ HasNumber p m ∧
      (m = n ↔ ¬ Shadowed ps n) := by
  have hreferred : ∀ p ∈ ps, ∃ r, isReferred (.text (Text.decimal n)) p = .ok r := fun p hp => by
    obtain ⟨m, hm⟩ := hnumbers p hp
    obtain ⟨r, hr, -⟩ := isReferred_decimal hm n
    exact ⟨r, hr⟩
  obtain ⟨own, hown, hownn⟩ := hn
  obtain ⟨_, hr, htrue⟩ := isReferred_decimal hownn n
  obtain rfl := htrue.2 (.inl rfl)
  obtain ⟨p, hfirst⟩ := exists_firstThat hreferred hown hr
  obtain ⟨front, rest, rfl, hp, hfront⟩ := firstThat_eq_some hfirst
  have hmem : p ∈ front ++ p :: rest := List.mem_append_right _ List.mem_cons_self
  obtain ⟨m, hm⟩ := hnumbers p hmem
  obtain ⟨_, hr', hp'⟩ := isReferred_decimal hm n
  rw [hp] at hr'
  cases hr'
  have hnumber : m = n ↔ HasNumber p n := ⟨fun h => h ▸ hm, fun h => hm.eq h⟩
  refine ⟨p, m, bind_eq_ok_iff.2 ⟨_, hports, bind_eq_ok_iff.2 ⟨_, hfirst, rfl⟩⟩, hmem, hm, ?_⟩
  rw [hnumber, shadowed_append_iff _ ((hp'.1 rfl).imp_left hnumber.1), not_not]
  intro q hq
  obtain ⟨k, hk⟩ := hnumbers q (List.mem_append_left _ hq)
  exact not_isReferred_decimal hk (hfront q hq)

/-! ## The targets of a backend -/

/-- Where no check fails, there is a target on every eligible node. -/
theorem mapM_of_instanceTargets (h : instanceTargets store service b port = .ok targets) :
    ∃ nodePort, port.get "nodePort" = .ok nodePort ∧ ∃ ids, store.instanceIds = .ok ids ∧
      ids.mapM (fun id => do return (⟨.text id, .int (← nodePort.integer)⟩ : Target)) = .ok targets := by
  obtain ⟨nodePort, hnodePort, h⟩ := bind_eq_ok_iff.1 h
  refine ⟨nodePort, hnodePort, ?_⟩
  rw [← bind_eq_ok_iff]
  dsimp only at h
  by_cases hholds : nodePort.holds = true
  · rw [if_neg (by simp [hholds])] at h
    by_cases hboth : b.protocol.same (.text "TCP_UDP") = true
    · rw [if_pos hboth] at h
      obtain ⟨nodePorts, -, h⟩ := bind_eq_ok_iff.1 h
      by_cases hdiffer : 1 < nodePorts.length
      · rw [if_pos hdiffer] at h
        obtain ⟨_, -, h⟩ := bind_eq_ok_iff.1 h
        cases h
      · rwa [if_neg hdiffer] at h
    · rwa [if_neg hboth] at h
  · rw [if_pos (by simpa using hholds)] at h
    obtain ⟨_, -, h⟩ := bind_eq_ok_iff.1 h
    obtain ⟨name, -, h⟩ := bind_eq_ok_iff.1 h
    split at h
    · cases h
    · obtain ⟨_, -, h⟩ := bind_eq_ok_iff.1 h
      cases h

theorem isTargetOf_of_instanceTargets (htype : type.same (.text "instance") = true)
    (h : instanceTargets store service b port = .ok targets) {t : Target} (ht : t ∈ targets) :
    IsTargetOf store service port type t := by
  obtain ⟨nodePort, hnodePort, ids, -, hmap⟩ := mapM_of_instanceTargets h
  obtain ⟨id, -, h⟩ := mem_of_mapM hmap t ht
  obtain ⟨n, hn, h⟩ := bind_eq_ok_iff.1 h
  cases h
  rw [IsTargetOf, if_pos htype]
  exact ⟨nodePort, n, hnodePort, hn, rfl⟩

theorem isTargetOf_of_addressTargets (htype : type.same (.text "instance") = false)
    (h : addressTargets store service port = .ok targets) {t : Target} (ht : t ∈ targets) :
    IsTargetOf store service port type t := by
  obtain ⟨key, hkey, h⟩ := bind_eq_ok_iff.1 h
  obtain ⟨endpoints, hendpoints, h⟩ := bind_eq_ok_iff.1 h
  obtain ⟨listed, hlisted, h⟩ := bind_eq_ok_iff.1 h
  obtain ⟨subsets, hsubsets, h⟩ := bind_eq_ok_iff.1 h
  obtain ⟨rows, hrows, h⟩ := bind_eq_ok_iff.1 h
  cases h
  have hall : endpointSubsets store service = .ok subsets :=
    bind_eq_ok_iff.2 ⟨key, hkey, bind_eq_ok_iff.2
      ⟨endpoints, hendpoints, bind_eq_ok_iff.2 ⟨listed, hlisted, hsubsets⟩⟩⟩
  obtain ⟨row, hrow, ht⟩ := List.mem_flatten.1 ht
  obtain ⟨subset, hsubset, h⟩ := mem_of_mapM hrows row hrow
  obtain ⟨p, hp, h⟩ := bind_eq_ok_iff.1 h
  rw [IsTargetOf, if_neg (by simp [htype])]
  by_cases hnull : p = .null
  · subst hnull
    cases h
    cases ht
  · split at h
    · exact absurd rfl hnull
    obtain ⟨described, hdescribed, h⟩ := bind_eq_ok_iff.1 h
    obtain ⟨addresses, haddresses, h⟩ := bind_eq_ok_iff.1 h
    obtain ⟨address, haddress, h⟩ := mem_of_mapM h t ht
    obtain ⟨ip, hip, h⟩ := bind_eq_ok_iff.1 h
    obtain ⟨n, hn, h⟩ := bind_eq_ok_iff.1 h
    cases h
    exact ⟨subsets, subset, p, n, addresses, address, hall, hsubset, hp, hnull, hn, rfl,
      bind_eq_ok_iff.2 ⟨described, hdescribed, haddresses⟩, haddress, hip⟩

theorem isTargetOf_of_resolveTargets (hport : findPort service b.port = .ok port)
    (h : resolveTargets store service b type = .ok targets) {t : Target} (ht : t ∈ targets) :
    IsTargetOf store service port type t := by
  obtain ⟨p, hp, h⟩ := bind_eq_ok_iff.1 h
  rw [hport] at hp
  cases hp
  dsimp only at h
  by_cases htype : type.same (.text "instance") = true
  · rw [if_pos htype] at h
    obtain ⟨found, hfound, hsorted⟩ := bind_eq_ok_iff.1 h
    exact isTargetOf_of_instanceTargets htype hfound ((sortBy_perm hsorted).mem_iff.1 ht)
  · rw [if_neg htype] at h
    obtain ⟨found, hfound, hsorted⟩ := bind_eq_ok_iff.1 h
    exact isTargetOf_of_addressTargets (Bool.eq_false_iff.2 htype) hfound ((sortBy_perm hsorted).mem_iff.1 ht)

theorem exists_hasNumber_of_listenerSpecs (hports : ports service = .ok ps)
    (hnumbers : ∀ p ∈ ps, ∃ n, HasNumber p n) (hspecs : listenerSpecs service settings = .ok specs)
    (hspec : spec ∈ specs) : ∃ p ∈ ps, HasNumber p spec.port := by
  have hread : ∀ p n, HasNumber p n → (p.item "port" >>= Value.integer) = .ok n :=
    fun p n h => bind_eq_ok_iff.2 ⟨_, h, rfl⟩
  obtain ⟨numbers, hall⟩ : ∃ numbers, ps.mapM (fun p => do (← p.item "port").integer) = .ok numbers :=
    isOk_mapM fun p hp => (hnumbers p hp).imp (hread p)
  have hportNumbers : portNumbers service = .ok numbers := bind_eq_ok_iff.2 ⟨ps, hports, hall⟩
  have hmem := (mem_ports_listenerSpecs hspecs hportNumbers).1 (List.mem_map_of_mem hspec)
  obtain ⟨p, hp, hn⟩ := mem_of_mapM hall _ hmem
  obtain ⟨n, hnumber⟩ := hnumbers p hp
  have heq := (hread p n hnumber).symm.trans hn
  cases heq
  exact ⟨p, hp, hnumber⟩

/-- The backend of a listener is resolved to one port of the Service, whose targets alone it gets. That is a
port of the listener's number just if the number is not shadowed. -/
theorem port_of_backend_iff (hports : ports service = .ok ps) (hnumbers : ∀ p ∈ ps, ∃ n, HasNumber p n)
    (hspecs : listenerSpecs service settings = .ok specs) (hspec : spec ∈ specs)
    (hused : Actions.isUsed spec.backend.port = false) :
    ∃ p m, findPort service spec.backend.port = .ok p ∧ p ∈ ps ∧ HasNumber p m ∧
      (m = spec.port ↔ ¬ Shadowed ps spec.port) ∧
      ∀ store type targets, resolveTargets store service spec.backend type = .ok targets →
        ∀ t ∈ targets, IsTargetOf store service p type t := by
  obtain ⟨-, hport⟩ := (backend_of_listenerSpecs hspecs hspec).2 hused
  obtain ⟨p, m, hfind, hp, hm, hiff⟩ :=
    number_findPort_iff hports hnumbers (exists_hasNumber_of_listenerSpecs hports hnumbers hspecs hspec)
  rw [← hport] at hfind
  exact ⟨p, m, hfind, hp, hm, hiff, fun store type targets htargets t ht =>
    isTargetOf_of_resolveTargets hfind htargets ht⟩

/-- A port of a Service. -/
def portOf (name : String) (number nodePort : Int) : Value :=
  .object [("name", .text name), ("port", .int number), ("nodePort", .int nodePort)]

/-- A Service with two ports, the first of which is called as given. -/
def twoPorts (name : String) : Value :=
  .object [("metadata", .object [("namespace", .text "default"), ("name", .text "web")]),
    ("spec", .object [("ports", .list [portOf name 80 30080, portOf "https" 443 30443])])]

/-- The listeners of such a Service. -/
def twoSpecs : List ListenerSpec :=
  [⟨80, .text "TCP", ⟨.text "web", .text "80", .text "TCP"⟩⟩,
    ⟨443, .text "TCP", ⟨.text "web", .text "443", .text "TCP"⟩⟩]

theorem hasNumber_twoPorts (name : String) :
    ∀ p ∈ [portOf name 80 30080, portOf "https" 443 30443], ∃ n, HasNumber p n := by
  simp only [List.mem_cons, List.not_mem_nil, or_false, forall_eq_or_imp, forall_eq]
  exact ⟨⟨80, rfl⟩, 443, rfl⟩

theorem named_by_letters : listenerSpecs (twoPorts "http") {} = .ok twoSpecs ∧
    ∃ p, findPort (twoPorts "http") (.text "443") = .ok p ∧ HasNumber p 443 := by
  have hspecs : listenerSpecs (twoPorts "http") {} = .ok twoSpecs := rfl
  have hspec : (⟨443, .text "TCP", ⟨.text "web", .text "443", .text "TCP"⟩⟩ : ListenerSpec) ∈ twoSpecs := by
    simp [twoSpecs]
  obtain ⟨p, m, hfind, -, hm, hiff, -⟩ := port_of_backend_iff rfl (hasNumber_twoPorts "http") hspecs hspec rfl
  have hnot : ¬ Shadowed [portOf "http" 80 30080, portOf "https" 443 30443] 443 := by
    apply not_shadowed
    simp only [List.mem_cons, List.not_mem_nil, or_false, forall_eq_or_imp, forall_eq]
    exact ⟨fun h => absurd (Value.text.inj (Except.ok.inj h)) (by decide),
      fun h => absurd (Value.text.inj (Except.ok.inj h)) (by decide)⟩
  obtain rfl := hiff.2 hnot
  exact ⟨hspecs, p, hfind, hm⟩

/-- The port 80 is called `443`, so it gets the traffic of the port 443. -/
theorem named_by_digits :
    ¬ ∀ (service : Value) (settings : ServiceSettings) (ps : List Value) (specs : List ListenerSpec)
      (spec : ListenerSpec),
      ports service = .ok ps → (∀ p ∈ ps, ∃ n, HasNumber p n) →
        listenerSpecs service settings = .ok specs → spec ∈ specs →
      Actions.isUsed spec.backend.port = false →
      ∃ p, findPort service spec.backend.port = .ok p ∧ HasNumber p spec.port := by
  intro hall
  obtain ⟨p, hfind, hnumber⟩ := hall (twoPorts "443") {} _ twoSpecs
    ⟨443, .text "TCP", ⟨.text "web", .text "443", .text "TCP"⟩⟩ rfl (hasNumber_twoPorts "443") rfl
      (by simp [twoSpecs]) rfl
  have hfound : findPort (twoPorts "443") (.text "443") = .ok (portOf "443" 80 30080) := rfl
  rw [hfound] at hfind
  cases hfind
  cases hnumber

end

end Routing

end Balancer
