import Balancer.Proofs.Checked
import Balancer.Routing.Backend

/-!
# The listeners that a Service asks for

* `portNumbers` : the numbers of the ports of a Service;
* `listenerSpecs_distinct`, `mem_ports_listenerSpecs`, `listenerSpecs_order` : there is one listener for each
  of these numbers, in the order in which they come first;
* `backend_of_listenerSpecs` : a backend has the protocol of its listener and, if it is no
  action, is named by the number.
-/

namespace Balancer

set_option autoImplicit false

theorem Text.decimal_injective : Function.Injective Text.decimal := by
  have hdigits : ∀ {m n : Nat}, Nat.toDigits 10 m = Nat.toDigits 10 n → m = n := fun {m n} h => by
    rw [← Nat.ofDigitChars_ten_toDigits (n := m), ← Nat.ofDigitChars_ten_toDigits (n := n), h]
  have hsign : ∀ {m : Nat} {cs : List Char}, Nat.toDigits 10 m ≠ '-' :: cs := fun {m cs} h => by
    have hmem : '-' ∈ Nat.toDigits 10 m := h ▸ List.mem_cons_self
    exact absurd (Nat.isDigit_of_mem_toDigits (by decide) (by decide) hmem) (by decide)
  rintro (m | m) (n | n) h <;> simp only [Text.decimal, String.ofList_inj] at h
  · exact congrArg Int.ofNat (hdigits h)
  · exact (hsign h).elim
  · exact (hsign h.symm).elim
  · have := hdigits (List.cons.inj h).2
    congr 1
    omega

namespace Routing

open Cluster

/-- The numbers of the ports of a Service. -/
def portNumbers (service : Value) : Except Error (List Int) := do
  (← ports service).mapM fun p => do (← p.item "port").integer

section

variable {service : Value} {settings : ServiceSettings} {specs : List ListenerSpec}
  {n : Int} {ports : List Value} {groups : List (Int × List Value)} {numbered : List (Int × Value)}

theorem mem_add {p : Int × Value} :
    n ∈ (groupByNumber.add p groups).map (·.1) ↔ n = p.1 ∨ n ∈ groups.map (·.1) := by
  induction groups with
  | nil => simp [groupByNumber.add]
  | cons g gs ih =>
    unfold groupByNumber.add
    split
    · rename_i hg
      simp only [List.map_cons, List.mem_cons, hg]
      tauto
    · simp only [List.map_cons, List.mem_cons, ih]
      tauto

theorem nodup_add {p : Int × Value} (h : (groups.map (·.1)).Nodup) :
    ((groupByNumber.add p groups).map (·.1)).Nodup := by
  induction groups with
  | nil => simp [groupByNumber.add]
  | cons g gs ih =>
    obtain ⟨hg, hgs⟩ := List.nodup_cons.1 h
    unfold groupByNumber.add
    split
    · exact h
    · rename_i hne
      refine List.nodup_cons.2 ⟨fun hm => ?_, ih hgs⟩
      exact (mem_add.1 hm).elim (fun h => hne h) hg

theorem groupByNumber_spec (numbered : List (Int × Value)) :
    ((groupByNumber numbered).map (·.1)).Nodup ∧
      ∀ n, n ∈ (groupByNumber numbered).map (·.1) ↔ n ∈ numbered.map (·.1) := by
  suffices hfold : ∀ groups : List (Int × List Value), (groups.map (·.1)).Nodup →
      ((numbered.foldl (fun groups p => groupByNumber.add p groups) groups).map (·.1)).Nodup ∧
      ∀ n, n ∈ (numbered.foldl (fun groups p => groupByNumber.add p groups) groups).map (·.1) ↔
        n ∈ numbered.map (·.1) ∨ n ∈ groups.map (·.1) by
    obtain ⟨hnodup, hmem⟩ := hfold [] List.nodup_nil
    refine ⟨hnodup, fun n => (hmem n).trans ?_⟩
    simp
  induction numbered with
  | nil => exact fun groups h => ⟨h, by simp⟩
  | cons p numbered ih =>
    intro groups h
    obtain ⟨hnodup, hmem⟩ := ih _ (nodup_add (p := p) h)
    refine ⟨hnodup, fun n => ?_⟩
    rw [List.foldl_cons, hmem, mem_add, List.map_cons, List.mem_cons]
    tauto

theorem map_add (p : Int × Value) (groups : List (Int × List Value)) :
    (groupByNumber.add p groups).map (·.1) =
    if p.1 ∈ groups.map (·.1) then groups.map (·.1) else groups.map (·.1) ++ [p.1] := by
  induction groups with
  | nil => rfl
  | cons g gs ih =>
    unfold groupByNumber.add
    by_cases hg : g.1 = p.1
    · simp [hg]
    · rw [if_neg hg, List.map_cons, ih, List.map_cons]
      by_cases hp : p.1 ∈ gs.map (·.1)
      · rw [if_pos hp, if_pos (List.mem_cons_of_mem _ hp)]
      · rw [if_neg hp, if_neg (List.not_mem_cons_of_ne_of_not_mem (Ne.symm hg) hp), List.cons_append]

/-- The numbers stand in the order in which they come first. -/
theorem map_groupByNumber (numbered : List (Int × Value)) :
    (groupByNumber numbered).map (·.1) = (numbered.map (·.1)).eraseDups := by
  suffices hfold : ∀ groups : List (Int × List Value),
      (numbered.foldl (fun groups p => groupByNumber.add p groups) groups).map (·.1) =
        groups.map (·.1) ++ ((numbered.map (·.1)).filter fun n => !decide (n ∈ groups.map (·.1))).eraseDups by
    simpa [groupByNumber] using hfold []
  induction numbered with
  | nil => simp
  | cons p numbered ih =>
    intro groups
    rw [List.foldl_cons, ih, map_add, List.map_cons]
    by_cases hp : p.1 ∈ groups.map (·.1)
    · rw [if_pos hp, List.filter_cons_of_neg (by simpa using hp)]
    · rw [if_neg hp, List.filter_cons_of_pos (by simpa using hp), List.eraseDups_cons,
        List.filter_filter, List.append_assoc]
      refine congrArg (fun ns => groups.map (·.1) ++ p.1 :: List.eraseDups ns)
        (List.filter_congr fun n _ => ?_)
      rw [Bool.eq_iff_iff]
      simp only [List.mem_append, List.mem_singleton, Bool.not_eq_true', decide_eq_false_iff_not,
        Bool.and_eq_true, beq_eq_false_iff_ne, ne_eq]
      tauto

theorem port_of_listenerSpec {spec : ListenerSpec} (h : listenerSpec service settings n ports = .ok spec) :
    spec.port = n := by
  obtain ⟨protocol, -, h⟩ := bind_eq_ok_iff.1 h
  obtain ⟨names, -, h⟩ := bind_eq_ok_iff.1 h
  split at h
  · cases h
    rfl
  · obtain ⟨name, -, h⟩ := bind_eq_ok_iff.1 h
    cases h
    rfl

/-- A listener has the usual protocol, UDP, or both of TCP and UDP. -/
theorem word_of_listenerProtocol {usual protocol : Value}
    (h : listenerProtocol service n ports usual = .ok protocol) :
    protocol = usual ∨ protocol = .text "UDP" ∨ protocol = .text "TCP_UDP" := by
  obtain ⟨values, -, h⟩ := bind_eq_ok_iff.1 h
  obtain ⟨protocols, -, h⟩ := bind_eq_ok_iff.1 h
  obtain ⟨refused, -, h⟩ := bind_eq_ok_iff.1 h
  dsimp only at h
  by_cases hrefused : (!refused.isEmpty) = true
  · rw [if_pos hrefused] at h
    obtain ⟨_, -, h⟩ := bind_eq_ok_iff.1 h
    obtain ⟨_, -, h⟩ := bind_eq_ok_iff.1 h
    obtain ⟨_, hthrow, -⟩ := bind_eq_ok_iff.1 h
    cases hthrow
  rw [if_neg hrefused] at h
  by_cases hrepeats : protocols.eraseDups.length ≠ protocols.length
  · rw [if_pos hrepeats] at h
    obtain ⟨_, -, h⟩ := bind_eq_ok_iff.1 h
    obtain ⟨_, hthrow, -⟩ := bind_eq_ok_iff.1 h
    cases hthrow
  rw [if_neg hrepeats] at h
  split at h
  · rename_i p
    cases h
    split
    · exact .inr (.inl rfl)
    · exact .inl rfl
  · cases h
    exact .inr (.inr rfl)

/-- A listener has the protocol that the backends have, UDP, or both of TCP and UDP. -/
theorem word_of_listenerSpec {spec : ListenerSpec} (h : listenerSpec service settings n ports = .ok spec) :
    spec.protocol = settings.targetGroup.backendProtocol ∨ spec.protocol = .text "UDP" ∨
      spec.protocol = .text "TCP_UDP" := by
  obtain ⟨protocol, hprotocol, h⟩ := bind_eq_ok_iff.1 h
  have hspec : spec.protocol = protocol := by
    obtain ⟨names, -, h⟩ := bind_eq_ok_iff.1 h
    split at h
    · cases h
      rfl
    · obtain ⟨name, -, h⟩ := bind_eq_ok_iff.1 h
      cases h
      rfl
  rw [hspec]
  exact word_of_listenerProtocol hprotocol

theorem word_of_listenerSpecs {spec : ListenerSpec} (h : listenerSpecs service settings = .ok specs)
    (hspec : spec ∈ specs) :
    spec.protocol = settings.targetGroup.backendProtocol ∨ spec.protocol = .text "UDP" ∨
      spec.protocol = .text "TCP_UDP" := by
  obtain ⟨ps, -, h⟩ := bind_eq_ok_iff.1 h
  obtain ⟨numbered, -, h⟩ := bind_eq_ok_iff.1 h
  obtain ⟨g, -, hg⟩ := mem_of_mapM h spec hspec
  exact word_of_listenerSpec hg

/-- A listener has the protocol that the backends have, or one that is a text. -/
theorem protocol_of_listenerSpecs {spec : ListenerSpec} (h : listenerSpecs service settings = .ok specs)
    (hspec : spec ∈ specs) :
    spec.protocol = settings.targetGroup.backendProtocol ∨ ∃ s, spec.protocol = .text s :=
  (word_of_listenerSpecs h hspec).imp_right fun hword => hword.elim (fun h => ⟨_, h⟩) fun h => ⟨_, h⟩

theorem backend_of_listenerSpecs {spec : ListenerSpec} (h : listenerSpecs service settings = .ok specs)
    (hspec : spec ∈ specs) :
    spec.backend.protocol = spec.protocol ∧
      (Actions.isUsed spec.backend.port = false →
        metaField service "name" = .ok spec.backend.service ∧
          spec.backend.port = .text (Text.decimal spec.port)) := by
  obtain ⟨ports, -, h⟩ := bind_eq_ok_iff.1 h
  obtain ⟨numbered, -, h⟩ := bind_eq_ok_iff.1 h
  obtain ⟨g, -, h⟩ := mem_of_mapM h spec hspec
  obtain ⟨protocol, -, h⟩ := bind_eq_ok_iff.1 h
  obtain ⟨names, -, h⟩ := bind_eq_ok_iff.1 h
  split at h
  · cases h
    refine ⟨rfl, fun hused => ?_⟩
    have hused' : Actions.isUsed (.text actionPort) = true := by decide
    simp [hused'] at hused
  · obtain ⟨name, hname, h⟩ := bind_eq_ok_iff.1 h
    cases h
    exact ⟨rfl, fun _ => ⟨hname, rfl⟩⟩

theorem ports_listenerSpecs (h : listenerSpecs service settings = .ok specs) :
    ∃ numbered : List (Int × Value), portNumbers service = .ok (numbered.map (·.1)) ∧
      specs.map (·.port) = (groupByNumber numbered).map (·.1) := by
  obtain ⟨ps, hps, h⟩ := bind_eq_ok_iff.1 h
  obtain ⟨numbered, hn, h⟩ := bind_eq_ok_iff.1 h
  refine ⟨numbered, ?_, ?_⟩
  · unfold portNumbers
    rw [hps]
    refine mapM_eq_ok_iff.2 (List.forall₂_map_right_iff.2 ((mapM_eq_ok_iff.1 hn).imp fun p e he => ?_))
    obtain ⟨v, hv, he⟩ := bind_eq_ok_iff.1 he
    obtain ⟨k, hk, he⟩ := bind_eq_ok_iff.1 he
    cases he
    exact bind_eq_ok_iff.2 ⟨v, hv, hk⟩
  · have hports : List.Forall₂ (fun g spec => g.1 = spec.port) (groupByNumber numbered) specs :=
      (mapM_eq_ok_iff.1 h).imp fun g spec hs => (port_of_listenerSpec hs).symm
    refine Eq.symm (List.forall₂_eq_eq_eq ▸ ?_)
    exact List.forall₂_map_left_iff.2 (List.forall₂_map_right_iff.2 hports)

/-- No two listeners are for one number. -/
theorem listenerSpecs_distinct (h : listenerSpecs service settings = .ok specs) :
    (specs.map (·.port)).Nodup := by
  obtain ⟨numbered, -, hports⟩ := ports_listenerSpecs h
  rw [hports]
  exact (groupByNumber_spec numbered).1

/-- The listeners stand in the order in which their numbers come first. -/
theorem listenerSpecs_order {numbers : List Int} (h : listenerSpecs service settings = .ok specs)
    (hn : portNumbers service = .ok numbers) : specs.map (·.port) = numbers.eraseDups := by
  obtain ⟨numbered, hn', hports⟩ := ports_listenerSpecs h
  rw [hn] at hn'
  cases hn'
  rw [hports, map_groupByNumber]

/-- There is a listener for every number. -/
theorem mem_ports_listenerSpecs {numbers : List Int} (h : listenerSpecs service settings = .ok specs)
    (hn : portNumbers service = .ok numbers) : n ∈ specs.map (·.port) ↔ n ∈ numbers := by
  obtain ⟨numbered, hn', hports⟩ := ports_listenerSpecs h
  rw [hn] at hn'
  cases hn'
  rw [hports]
  exact (groupByNumber_spec numbered).2 n

end

end Routing

end Balancer
