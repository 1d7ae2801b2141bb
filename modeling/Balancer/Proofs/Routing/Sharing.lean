import Balancer.Proofs.Annotations
import Balancer.Proofs.Config
import Balancer.Proofs.Routing.Targets
import Mathlib.Data.List.Induction

/-!
# How ports share listeners

All ports of one number have one listener, whose protocol and backend the ports determine together.

* `IsDeclared`, `protocolOf`, `namesAction` : a port that can be read, its protocol, and whether an action is
  declared under its name;
* `sharing`, `mem_groupByNumber` : the ports of one number, which are those that are grouped under it;
* `Unservable` : no listener can serve the ports of a number, of which some have another
  protocol or two have the same;
* `sharedProtocol`, `sharedBackend`, `listenerSpec_sharing` : what the ports of a number come to;
* `Serves`, `listenerSpecs_spec` : listeners are refused just if the ports of some number are
  unservable, else there is one for each number that serves its ports, and no two have the same backend
  unless that is an action.
-/

namespace Balancer

set_option autoImplicit false

/-- Whether two backends are equal. -/
def Backend.same (a b : Backend) :
    Bool := a.service.alike b.service && a.port.alike b.port && a.protocol.alike b.protocol

/-- Under a valid configuration, annotations ask for one of two protocols. -/
theorem ServiceSettings.backendProtocol_of_parse {given c : Config} {annotations : Value}
    {settings : ServiceSettings} (hvalid : given.validate = .ok c) (h : parse c annotations = .ok settings) :
    settings.targetGroup.backendProtocol = .text "TCP" ∨
      settings.targetGroup.backendProtocol = .text "UDP" := by
  obtain ⟨v, word?, -, hword, heq⟩ := (reads_of_parse h).backendProtocol
  obtain ⟨w, hw, htext⟩ := exists_text_of_choice? hword (Config.words_of_validateWith hvalid).2
  rw [heq, htext]
  simpa [Config.backendProtocols] using hw

namespace Routing

open Cluster

/-- A port with an integer as its number, a text as its protocol if it has one, and a name that can be
looked up if it has one. -/
structure IsDeclared (port : Value) : Prop where
  number : ∃ n, HasNumber port n
  protocol : IsOptionalText (Fields.get port.fields "protocol")
  name : (Fields.get port.fields "name").holds = true → ∃ k, (Fields.get port.fields "name").key = .ok k

/-- The protocol of a port, TCP if none is declared. -/
def protocolOf (port : Value) :
    String := if textIn port "protocol" = "" then "TCP" else textIn port "protocol"

/-- Whether a port has a name under which an action is declared. -/
def namesAction (actions : Actions) (port : Value) : Bool :=
  textIn port "name" != "" && actions.contains (textIn port "name")

/-- The ports of one number. -/
def sharing (ps : List Value) (n : Int) : List Value := ps.filter fun p => numberIn p "port" = n

/-- Among some ports there is a protocol other than TCP and UDP, or a repeated one. -/
def Unservable (ps : List Value) : Prop :=
  (∃ p ∈ ps, protocolOf p ≠ "TCP" ∧ protocolOf p ≠ "UDP") ∨ ¬ (ps.map protocolOf).Nodup

/-- A listener serves the ports of its number. Its backend is an action if one is declared under the name of a
port, and then that of the first such name. -/
structure Serves (name : Value) (settings : ServiceSettings) (ps : List Value)
    (spec : ListenerSpec) : Prop where
  protocol : spec.protocol = .text "TCP_UDP" ∨ spec.protocol = .text "UDP" ∨ spec.protocol = .text "TCP"
  shared_iff : spec.protocol = .text "TCP_UDP" ↔ (sharing ps spec.port).length = 2
  udp_iff : spec.protocol = .text "UDP" ↔ ∃ p, sharing ps spec.port = [p] ∧
    (protocolOf p = "UDP" ∨ protocolOf p = "TCP" ∧ settings.targetGroup.backendProtocol = .text "UDP")
  action_iff : Actions.isUsed spec.backend.port = true ↔
    ∃ p ∈ sharing ps spec.port, namesAction settings.actions p = true
  action : ∀ p, (sharing ps spec.port).find? (namesAction settings.actions) = some p →
    spec.backend = ⟨.text (textIn p "name"), .text actionPort, spec.protocol⟩
  noAction : Actions.isUsed spec.backend.port = false →
    spec.backend = ⟨name, .text (Text.decimal spec.port), spec.protocol⟩

section

variable {service name port usual : Value} {settings : ServiceSettings} {actions : Actions}
  {ps qs : List Value} {n : Int} {numbered : List (Int × Value)} {groups : List (Int × List Value)}
  {g : Int × List Value} {given c : Config}

/-! ## Grouping -/

theorem mem_of_mem_add {p : Int × Value} (hnodup : (groups.map (·.1)).Nodup)
    (h : g ∈ groupByNumber.add p groups) :
    g.1 ≠ p.1 ∧ g ∈ groups ∨ g.1 = p.1 ∧ ((∃ qs, (p.1, qs) ∈ groups ∧ g.2 = qs ++ [p.2]) ∨
      p.1 ∉ groups.map (·.1) ∧ g.2 = [p.2]) := by
  induction groups with
  | nil =>
    obtain rfl := List.mem_singleton.1 h
    exact .inr ⟨rfl, .inr ⟨List.not_mem_nil, rfl⟩⟩
  | cons f groups ih =>
    obtain ⟨hf, hgroups⟩ := List.nodup_cons.1 hnodup
    unfold groupByNumber.add at h
    by_cases hfp : f.1 = p.1
    · rw [if_pos hfp] at h
      rcases List.mem_cons.1 h with rfl | h
      · exact .inr ⟨hfp, .inl ⟨f.2, by rw [← hfp]; exact List.mem_cons_self, rfl⟩⟩
      · exact .inl ⟨fun hg => hf (List.mem_map.2 ⟨g, h, hg.trans hfp.symm⟩), List.mem_cons_of_mem _ h⟩
    · rw [if_neg hfp] at h
      rcases List.mem_cons.1 h with rfl | h
      · exact .inl ⟨hfp, List.mem_cons_self⟩
      · rcases ih hgroups h with ⟨hne, hg⟩ | ⟨heq, ⟨qs, hqs, hg⟩ | ⟨hnone, hg⟩⟩
        · exact .inl ⟨hne, List.mem_cons_of_mem _ hg⟩
        · exact .inr ⟨heq, .inl ⟨qs, List.mem_cons_of_mem _ hqs, hg⟩⟩
        · refine .inr ⟨heq, .inr ⟨?_, hg⟩⟩
          exact List.mem_cons.not.2 (not_or.2 ⟨Ne.symm hfp, hnone⟩)

/-- What is grouped under a number are all ports of that number, in order. -/
theorem mem_groupByNumber (h : g ∈ groupByNumber numbered) :
    g.2 = (numbered.filter fun e => e.1 = g.1).map (·.2) := by
  induction numbered using List.reverseRecOn generalizing g with
  | nil => cases h
  | append_singleton numbered p ih =>
    have hadd : groupByNumber (numbered ++ [p]) = groupByNumber.add p (groupByNumber numbered) :=
      List.foldl_concat ..
    rw [hadd] at h
    obtain ⟨hnodup, hmem⟩ := groupByNumber_spec numbered
    rw [List.filter_append, List.map_append]
    rcases mem_of_mem_add hnodup h with ⟨hne, hg⟩ | ⟨heq, ⟨qs, hqs, hg⟩ | ⟨hnone, hg⟩⟩
    · rw [ih hg, List.filter_cons_of_neg (by simpa using Ne.symm hne)]
      simp
    · have hqs := ih hqs
      dsimp only at hqs
      rw [hg, heq, hqs, List.filter_cons_of_pos (by simp)]
      simp
    · have hempty : numbered.filter (fun e => decide (e.1 = g.1)) = [] := by
        rw [List.filter_eq_nil_iff]
        intro e he hdec
        rw [hmem] at hnone
        exact hnone (List.mem_map.2 ⟨e, he, (of_decide_eq_true hdec).trans heq⟩)
      rw [hg, hempty, List.filter_cons_of_pos (by simpa using heq.symm)]
      simp

/-! ## Reading ports -/

theorem IsDeclared.get (h : IsDeclared port) (k : String) : port.get k = .ok (Fields.get port.fields k) := by
  obtain ⟨n, hn⟩ := h.number
  obtain ⟨fs, rfl, -⟩ := hn.exists_fields
  rfl

theorem IsDeclared.portProtocol (h : IsDeclared port) :
    portProtocol port = .ok (.text (protocolOf port)) := by
  unfold Routing.portProtocol protocolOf textIn
  rw [h.get]
  obtain hnone | ⟨s, hs⟩ := h.protocol
  · simp [hnone, Value.orElse, Value.holds, bind, Except.bind, pure, Except.pure]
  · by_cases hempty : s = ""
    · simp [hs, hempty, Value.orElse, Value.holds, bind, Except.bind, pure, Except.pure]
    · simp [hs, hempty, Value.orElse, Value.holds, bind, Except.bind, pure, Except.pure]

theorem textIn_of_not_holds {v : Value} {k : String} (h : (Fields.get v.fields k).holds = false) :
    textIn v k = "" := by
  unfold textIn
  cases hget : Fields.get v.fields k with
  | text s => simpa [hget, Value.holds] using h
  | _ => rfl

theorem IsDeclared.actionName? (h : IsDeclared port) (actions : Actions) :
    actionName? actions port = .ok
      (if namesAction actions port then some (.text (textIn port "name")) else none) := by
  unfold Routing.actionName? namesAction
  rw [h.get]
  simp only [bind, Except.bind]
  cases hholds : (Fields.get port.fields "name").holds with
  | true =>
    obtain ⟨k, hk⟩ := h.name hholds
    have hname := Value.eq_toValue_of_key hk
    simp only [Actions.declared?, hk]
    rw [textIn, hname]
    cases k with
    | text s =>
      have hs : s ≠ "" := by simpa [hname, Key.toValue, Value.holds] using hholds
      simp [Key.toValue, hs, Table.contains, bind, Except.bind, pure, Except.pure]
    | _ => simp [Key.toValue, bind, Except.bind, pure, Except.pure]
  | false => simp [textIn_of_not_holds hholds, pure, Except.pure]

/-! ## The ports of a number -/

/-- The protocol of the listener for ports of some protocols. -/
def sharedProtocol (usual : Value) : List String → Value
  | [p] => if p = "UDP" then .text "UDP" else usual
  | _ => .text "TCP_UDP"

/-- The backend of the listener for some ports. -/
def sharedBackend (name protocol : Value) (actions : Actions) (n : Int) (ps : List Value) : Backend :=
  match ps.find? (namesAction actions) with
  | some p => ⟨.text (textIn p "name"), .text actionPort, protocol⟩
  | none => ⟨name, .text (Text.decimal n), protocol⟩

theorem objectKey_of_metaField (h : metaField service "name" = .ok name) :
    ∃ key, objectKey service = .ok key := by
  obtain ⟨m, hm, hname⟩ := bind_eq_ok_iff.1 h
  cases m with
  | object fs =>
    have hholds : (Value.object fs).holds = true := by
      cases fs with
      | nil => cases hname
      | cons f fs => rfl
    have hget : service.get "metadata" = .ok (.object fs) := by
      cases service with
      | object gs => exact congrArg Except.ok (Fields.get_of_item hm)
      | _ => cases hm
    unfold objectKey metadata part
    rw [hget]
    simp only [bind, Except.bind, Value.orElse, hholds, pure, Except.pure, if_true,
      Value.get_object, Value.item_object]
      at hname ⊢
    rw [hname]
    exact ⟨_, rfl⟩
  | _ => cases hname

/-- Texts are repeated as keys just if they are as texts. -/
theorem eraseDups_map_text (ss : List String) : (ss.map Key.text).eraseDups = ss.eraseDups.map Key.text := by
  induction ss using eraseDups_induct with
  | nil => simp
  | cons s ss ih =>
    rw [List.map_cons, List.eraseDups_cons, List.eraseDups_cons, List.map_cons, ← ih, List.filter_map]
    simp [Function.comp_def]

/-- Protocols are refused unless they are TCP and UDP. -/
theorem unsupported_texts (protocols : List String) :
    ∃ refused : List String, unsupported (protocols.map .text) = .ok (refused.map .text) ∧
      (refused = [] ↔ ∀ p ∈ protocols, p = "TCP" ∨ p = "UDP") := by
  obtain ⟨refused, hsorted, hperm, -⟩ :=
    Value.sorted_texts (protocols.eraseDups.filter fun p => !(p == "TCP" || p == "UDP"))
  refine ⟨refused, ?_, ?_⟩
  · rw [unsupported, eraseDups_map_text, List.filter_map, ← hsorted, List.map_map]
    simp [Function.comp_def, Key.toValue]
  · rw [← List.isEmpty_iff, hperm.isEmpty_eq, List.isEmpty_iff, List.filter_eq_nil_iff]
    simp [or_iff_not_imp_left]

/-- What the protocols of some ports come to. -/
theorem listenerProtocol_texts {key : Value} {protocols refused : List String}
    (hkey : objectKey service = .ok key) (hread : ps.mapM portProtocol = .ok (protocols.map .text))
    (hrefused : unsupported (protocols.map .text) = .ok (refused.map .text)) (n : Int) (usual : Value) :
    listenerProtocol service n ps usual =
      if refused ≠ [] then .error (.configuration (.portProtocols n key.shown refused))
      else if ¬ protocols.Nodup then
        .error (.configuration (.portRepeats n key.shown
          ((protocols.map Key.text).headD .null).toValue.shown))
      else .ok (sharedProtocol usual protocols) := by
  have hkeys : (protocols.map Value.text).mapM Value.key = .ok (protocols.map .text) := by
    rw [mapM_eq_ok_iff, List.forall₂_map_right_iff, List.forall₂_map_left_iff, List.forall₂_same]
    exact fun _ _ => rfl
  have hdistinct : (protocols.map Key.text).eraseDups.length = (protocols.map Key.text).length ↔
      protocols.Nodup := by
    rw [length_eraseDups_iff, List.pairwise_map]
    simp only [Key.text_beq_text, beq_eq_false_iff_ne]
    exact ⟨fun h => h.imp Ne.symm, fun h => h.imp Ne.symm⟩
  unfold listenerProtocol
  rw [hread]
  show ((protocols.map Value.text).mapM Value.key >>= _) = _
  rw [hkeys]
  show (unsupported (protocols.map Key.text) >>= _) = _
  rw [hrefused]
  simp only [bind, Except.bind, List.isEmpty_map, Bool.not_eq_true', List.isEmpty_eq_false_iff]
  by_cases hnone : refused = []
  · rw [if_neg (not_not.2 hnone), if_neg (not_not.2 hnone)]
    by_cases hnodup : protocols.Nodup
    · rw [if_neg (not_not.2 (hdistinct.2 hnodup)), if_neg (not_not.2 hnodup)]
      rcases protocols with _ | ⟨p, _ | ⟨q, protocols⟩⟩
      · rfl
      · simp only [List.map_cons, List.map_nil, Key.text_beq_text, beq_iff_eq]
        rfl
      · rfl
    · rw [if_pos (mt hdistinct.1 hnodup), if_pos hnodup, hkey]
      rfl
  · rw [if_pos hnone, if_pos hnone, hkey, Value.textsAt_texts]
    rfl

theorem listenerProtocol_sharing (hkey : ∃ key, objectKey service = .ok key)
    (hps : ∀ p ∈ ps, IsDeclared p) (n : Int) (usual : Value) :
    (Unservable ps → ∃ fault, listenerProtocol service n ps usual = .error (.configuration fault)) ∧
      (¬ Unservable ps → listenerProtocol service n ps usual =
        .ok (sharedProtocol usual (ps.map protocolOf))) := by
  obtain ⟨key, hkey⟩ := hkey
  have hread : ps.mapM portProtocol = .ok ((ps.map protocolOf).map .text) := by
    rw [mapM_eq_ok_iff, List.map_map, List.forall₂_map_right_iff, List.forall₂_same]
    exact fun p hp => (hps p hp).portProtocol
  obtain ⟨refused, hrefused, hnone⟩ := unsupported_texts (ps.map protocolOf)
  have hother : refused ≠ [] ↔ ∃ p ∈ ps, protocolOf p ≠ "TCP" ∧ protocolOf p ≠ "UDP" := by
    rw [Ne, hnone, List.forall_mem_map]
    push Not
    rfl
  rw [listenerProtocol_texts hkey hread hrefused, Unservable, ← hother]
  by_cases hrefused : refused ≠ []
  · rw [if_pos hrefused]
    exact ⟨fun _ => ⟨_, rfl⟩, fun hnot => absurd (.inl hrefused) hnot⟩
  · rw [if_neg hrefused, or_iff_right hrefused]
    split
    · exact ⟨fun _ => ⟨_, rfl⟩, fun hnot => absurd ‹_› hnot⟩
    · exact ⟨fun hrepeats => absurd hrepeats ‹_›, fun _ => rfl⟩

/-- The ports of a number come to one listener, or are refused. -/
theorem listenerSpec_sharing (hname : metaField service "name" = .ok name) (hps : ∀ p ∈ ps, IsDeclared p)
    (settings : ServiceSettings) (n : Int) :
    (Unservable ps → ∃ fault, listenerSpec service settings n ps = .error (.configuration fault)) ∧
      (¬ Unservable ps → listenerSpec service settings n ps =
        .ok ⟨n, sharedProtocol settings.targetGroup.backendProtocol (ps.map protocolOf),
          sharedBackend name (sharedProtocol settings.targetGroup.backendProtocol (ps.map protocolOf))
            settings.actions n ps⟩) := by
  obtain ⟨hrefused, hserved⟩ :=
    listenerProtocol_sharing (objectKey_of_metaField hname) hps n settings.targetGroup.backendProtocol
  have hnames : ps.filterMapM (actionName? settings.actions) =
      .ok ((ps.filter (namesAction settings.actions)).map fun p => .text (textIn p "name")) := by
    have hread := filterMapM_map_ok (h := id) fun p hp => (hps p hp).actionName? settings.actions
    rw [List.map_id] at hread
    rw [hread]
    clear hread hps hrefused hserved
    induction ps with
    | nil => rfl
    | cons p ps ih =>
      rw [Except.ok.injEq] at ih ⊢
      rw [List.filterMap_cons, List.filter_cons, ih]
      split <;> simp_all
  unfold listenerSpec sharedBackend
  constructor
  · intro h
    obtain ⟨fault, hfault⟩ := hrefused h
    rw [hfault]
    exact ⟨fault, rfl⟩
  · intro h
    rw [hserved h, hnames, hname, ← List.head?_filter]
    cases ps.filter (namesAction settings.actions) <;> rfl

/-! ## Listeners -/

theorem mapM_config {α β : Type} {f : α → Except Error β} {xs : List α} {P : α → Prop}
    (hbad : ∀ x ∈ xs, P x → ∃ fault, f x = .error (.configuration fault))
    (hgood : ∀ x ∈ xs, ¬ P x → ∃ y, f x = .ok y) (h : ∃ x ∈ xs, P x) :
    ∃ fault, xs.mapM f = .error (.configuration fault) := by
  induction xs with
  | nil => simp at h
  | cons x xs ih =>
    obtain ⟨hbadx, hbad⟩ := List.forall_mem_cons.1 hbad
    obtain ⟨hgoodx, hgood⟩ := List.forall_mem_cons.1 hgood
    rw [List.mapM_cons]
    by_cases hx : P x
    · obtain ⟨fault, hfault⟩ := hbadx hx
      rw [hfault]
      exact ⟨fault, rfl⟩
    · obtain ⟨y, hy⟩ := hgoodx hx
      obtain ⟨fault, hfault⟩ := ih hbad hgood (by simpa [hx] using h)
      rw [hy, hfault]
      exact ⟨fault, rfl⟩

theorem Text.mem_decimal {c : Char} (h : c ∈ (Text.decimal n).toList) : c = '-' ∨ c.isDigit = true := by
  cases n with
  | ofNat n =>
    have h : c ∈ Nat.toDigits 10 n := by simpa [Text.decimal] using h
    exact .inr (Nat.isDigit_of_mem_toDigits (by decide) (by decide) h)
  | negSucc n =>
    have h : c = '-' ∨ c ∈ Nat.toDigits 10 (n + 1) := by simpa [Text.decimal] using h
    exact h.imp_right (Nat.isDigit_of_mem_toDigits (by decide) (by decide))

theorem isUsed_decimal (n : Int) : Actions.isUsed (.text (Text.decimal n)) = false := by
  rw [Actions.isUsed, Value.same_text, beq_eq_false_iff_ne]
  intro heq
  have hmem : 'u' ∈ (Text.decimal n).toList := by
    rw [heq]
    decide
  exact absurd (Text.mem_decimal hmem) (by decide)

/-- Ports that can be served are one, or one of each protocol. -/
theorem cases_of_servable (hps : ps ≠ []) (h : ¬ Unservable ps) :
    (∃ p, ps = [p] ∧ (protocolOf p = "TCP" ∨ protocolOf p = "UDP")) ∨ ∃ p q, ps = [p, q] := by
  obtain ⟨hother, hnodup⟩ := not_or.1 h
  rw [not_not] at hnodup
  have htwo : ∀ p ∈ ps, protocolOf p = "TCP" ∨ protocolOf p = "UDP" := by
    intro p hp
    by_contra hne
    exact hother ⟨p, hp, not_or.1 hne⟩
  match ps with
  | [] => exact absurd rfl hps
  | [p] => exact .inl ⟨p, rfl, htwo p (by simp)⟩
  | [p, q] => exact .inr ⟨p, q, rfl⟩
  | p :: q :: r :: rest =>
    simp only [List.map_cons, List.nodup_cons, List.mem_cons, not_or] at hnodup
    obtain ⟨⟨hpq, hpr, -⟩, ⟨hqr, -⟩, -⟩ := hnodup
    rcases htwo p (by simp) with hp | hp <;> rcases htwo q (by simp) with hq | hq <;> rcases htwo r
      (by simp) with hr | hr <;>
      simp_all

theorem serves_shared (hprotocol : settings.targetGroup.backendProtocol = .text "TCP" ∨
      settings.targetGroup.backendProtocol = .text "UDP")
    (hn : sharing ps n ≠ []) (h : ¬ Unservable (sharing ps n)) (name : Value) :
    Serves name settings ps ⟨n, sharedProtocol settings.targetGroup.backendProtocol
      ((sharing ps n).map protocolOf),
      sharedBackend name (sharedProtocol settings.targetGroup.backendProtocol ((sharing ps n).map protocolOf))
        settings.actions n
        (sharing ps n)⟩ := by
  have hcases := cases_of_servable hn h
  have hused : Actions.isUsed (.text actionPort) = true := by decide
  refine ⟨?_, ?_, ?_, ?_, ?_, ?_⟩
  · rcases hcases with ⟨p, hp, htwo⟩ | ⟨p, q, hpq⟩
    · rw [hp]
      rcases htwo with htcp | hudp
      · simpa [sharedProtocol, htcp] using .inr hprotocol.symm
      · simp [sharedProtocol, hudp]
    · simp [hpq, sharedProtocol]
  · rcases hcases with ⟨p, hp, htwo⟩ | ⟨p, q, hpq⟩
    · rw [hp]
      rcases htwo with htcp | hudp
      · rcases hprotocol with hp | hp <;> simp [sharedProtocol, htcp, hp]
      · simp [sharedProtocol, hudp]
    · simp [hpq, sharedProtocol]
  · rcases hcases with ⟨p, hp, htwo⟩ | ⟨p, q, hpq⟩
    · rw [hp]
      rcases htwo with htcp | hudp
      · simp [sharedProtocol, htcp]
      · simp [sharedProtocol, hudp]
    · simp [hpq, sharedProtocol]
  · simp only [sharedBackend]
    cases hfind : (sharing ps n).find? (namesAction settings.actions) with
    | some p =>
      simp only [hused, true_iff]
      exact ⟨p, List.mem_of_find?_eq_some hfind, List.find?_some hfind⟩
    | none =>
      simp only [isUsed_decimal, Bool.false_eq_true, false_iff]
      rintro ⟨p, hp, haction⟩
      exact List.find?_eq_none.1 hfind p hp haction
  · intro p hp
    simp only [sharedBackend, hp]
  · unfold sharedBackend
    split
    · exact fun hnot => absurd (hused.symm.trans hnot) (by decide)
    · exact fun _ => rfl

theorem sharing_ne_nil_iff : sharing ps n ≠ [] ↔ n ∈ ps.map (numberIn · "port") := by
  rw [Ne, ← List.isEmpty_iff, ← Bool.not_eq_false, not_not,
    List.isEmpty_eq_false_iff_exists_mem, List.mem_map]
  simp only [sharing, List.mem_filter, decide_eq_true_eq]

theorem groupByNumber_sharing (ps : List Value) :
    groupByNumber (ps.map fun p => (numberIn p "port", p)) =
      (ps.map (numberIn · "port")).eraseDups.map fun n => (n, sharing ps n) := by
  have hnumbers : (ps.map (numberIn · "port")) = (ps.map fun p => (numberIn p "port", p)).map (·.1) := by
    rw [List.map_map]
    rfl
  rw [hnumbers, ← map_groupByNumber, List.map_map]
  refine (List.map_id _).symm.trans (List.map_congr_left fun g hg => ?_)
  have hg := mem_groupByNumber hg
  rw [List.filter_map, List.map_map] at hg
  exact Prod.ext rfl (hg.trans (List.map_id _))

theorem IsDeclared.item (h : IsDeclared port) : port.item "port" = .ok (.int (numberIn port "port")) := by
  obtain ⟨n, hn⟩ := h.number
  obtain ⟨fs, rfl, hitem⟩ := hn.exists_fields
  exact hitem

/-- The listeners are those for the ports of each number. -/
theorem listenerSpecs_sharing (hports : ports service = .ok ps) (hps : ∀ p ∈ ps, IsDeclared p)
    (settings : ServiceSettings) :
    listenerSpecs service settings =
      (ps.map (numberIn · "port")).eraseDups.mapM fun n =>
        listenerSpec service settings n (sharing ps n) := by
  have hnumbered : (ps.mapM fun p => do return (← (← p.item "port").integer, p)) =
      (.ok (ps.map fun p => (numberIn p "port", p)) : Except Error _) := by
    rw [mapM_eq_ok_iff, List.forall₂_map_right_iff, List.forall₂_same]
    exact fun p hp => bind_eq_ok_iff.2 ⟨_, (hps p hp).item, rfl⟩
  unfold listenerSpecs
  rw [hports]
  show ((ps.mapM fun p => do return (← (← p.item "port").integer, p)) >>= _) = _
  rw [hnumbered]
  show (groupByNumber (ps.map fun p => (numberIn p "port", p))).mapM _ = _
  rw [groupByNumber_sharing, List.mapM_map]
  rfl

/-- The ports of a number have a listener that serves them, or are refused. -/
theorem listenerSpec_serves {annotations : Value} (hvalid : given.validate = .ok c)
    (hsettings : ServiceSettings.parse c annotations = .ok settings)
    (hname : metaField service "name" = .ok name) (hps : ∀ p ∈ ps, IsDeclared p)
    (hn : n ∈ ps.map (numberIn · "port")) :
    (Unservable (sharing ps n) → ∃ fault, listenerSpec service settings n (sharing ps n) =
      .error (.configuration fault)) ∧
      (¬ Unservable (sharing ps n) →
        ∃ spec, listenerSpec service settings n (sharing ps n) = .ok spec ∧
          Serves name settings ps spec) := by
  have hdeclared : ∀ p ∈ sharing ps n, IsDeclared p := fun p hp => hps p (List.mem_filter.1 hp).1
  have hprotocol := ServiceSettings.backendProtocol_of_parse hvalid hsettings
  obtain ⟨hrefused, hserved⟩ := listenerSpec_sharing hname hdeclared settings n
  exact ⟨hrefused, fun h => ⟨_, hserved h, serves_shared hprotocol (sharing_ne_nil_iff.2 hn) h name⟩⟩

/-- Listeners of different numbers whose backends are no actions have different backends. -/
theorem Serves.differ {spec spec' : ListenerSpec} (h : Serves name settings ps spec)
    (h' : Serves name settings ps spec') (hne : spec.port ≠ spec'.port)
    (hused : Actions.isUsed spec.backend.port = false) (hused' : Actions.isUsed spec'.backend.port = false) :
    spec.backend.same spec'.backend = false := by
  have hport : (Value.text (Text.decimal spec.port)).alike (.text (Text.decimal spec'.port)) = false := by
    simpa [Value.alike] using fun heq => hne (Text.decimal_injective heq)
  rw [h.noAction hused, h'.noAction hused']
  simp only [Backend.same, hport, Bool.and_false, Bool.false_and]

/-- Listeners are refused just if no listener can serve the ports of some number. Else there is one for
each number, in the order in which the numbers come first, that serves its ports, and backends that are
no actions all differ. -/
theorem listenerSpecs_spec {annotations : Value} (hvalid : given.validate = .ok c)
    (hsettings : ServiceSettings.parse c annotations = .ok settings)
    (hname : metaField service "name" = .ok name) (hports : ports service = .ok ps)
    (hps : ∀ p ∈ ps, IsDeclared p) :
    ((∃ fault, listenerSpecs service settings = .error (.configuration fault)) ↔
      ∃ n, Unservable (sharing ps n)) ∧
      ((∀ n, ¬ Unservable (sharing ps n)) → ∃ specs, listenerSpecs service settings = .ok specs ∧
        specs.map (·.port) = (ps.map (numberIn · "port")).eraseDups ∧
        (∀ spec ∈ specs, Serves name settings ps spec) ∧
        (specs.filter fun spec => !Actions.isUsed spec.backend.port).Pairwise fun a b =>
          a.backend.same b.backend = false) := by
  have heq := listenerSpecs_sharing hports hps settings
  have hspec : ∀ n ∈ (ps.map (numberIn · "port")).eraseDups, _ := fun n hn =>
    listenerSpec_serves hvalid hsettings hname hps (mem_of_mem_eraseDups hn)
  have hall : (∀ n, ¬ Unservable (sharing ps n)) → ∃ specs, listenerSpecs service settings = .ok specs := by
    intro hnone
    rw [heq]
    exact isOk_mapM fun n hn => ((hspec n hn).2 (hnone n)).imp fun _ h => h.1
  refine ⟨⟨fun ⟨fault, hfault⟩ => ?_, fun ⟨n, hn⟩ => ?_⟩, fun hnone => ?_⟩
  · by_contra hnone
    obtain ⟨specs, hspecs⟩ := hall (not_exists.1 hnone)
    rw [hspecs] at hfault
    cases hfault
  · have hmem : n ∈ (ps.map (numberIn · "port")).eraseDups := by
      rw [List.mem_eraseDups, ← sharing_ne_nil_iff]
      rintro hnil
      simp [hnil, Unservable] at hn
    rw [heq]
    exact mapM_config (fun n hn => (hspec n hn).1)
      (fun n hn hgood => ((hspec n hn).2 hgood).imp fun _ h => h.1) ⟨n, hmem, hn⟩
  · obtain ⟨specs, hspecs⟩ := hall hnone
    have hserves : ∀ spec ∈ specs, Serves name settings ps spec := by
      intro spec hmem
      obtain ⟨n, hn, hok⟩ := mem_of_mapM (heq ▸ hspecs) spec hmem
      obtain ⟨spec', hok', hserves⟩ := (hspec n hn).2 (hnone n)
      rw [hok] at hok'
      cases hok'
      exact hserves
    refine ⟨specs, hspecs, ?_, hserves, ?_⟩
    · refine listenerSpecs_order hspecs (bind_eq_ok_iff.2 ⟨ps, hports, ?_⟩)
      rw [mapM_eq_ok_iff, List.forall₂_map_right_iff, List.forall₂_same]
      exact fun p hp => bind_eq_ok_iff.2 ⟨_, (hps p hp).item, rfl⟩
    · have hdistinct : specs.Pairwise fun a b => a.port ≠ b.port :=
        List.pairwise_map.1 (listenerSpecs_distinct hspecs)
      refine (hdistinct.filter _).imp_of_mem fun {a b} ha hb hne => ?_
      obtain ⟨ha, hused⟩ := List.mem_filter.1 ha
      obtain ⟨hb, hused'⟩ := List.mem_filter.1 hb
      exact (hserves a ha).differ (hserves b hb) hne (by simpa using hused) (by simpa using hused')

end

/-- A port of a protocol. -/
def protocolPort (name : String) (number : Int) (protocol : String) : Value :=
  .object [("name", .text name), ("port", .int number), ("protocol", .text protocol)]

/-- Two ports share the number 53. -/
def dnsPorts : List Value :=
  [protocolPort "dns-tcp" 53 "TCP", protocolPort "http" 80 "TCP", protocolPort "dns-udp" 53 "UDP"]

def dnsService : Value :=
  .object [("metadata", .object [("namespace", .text "default"), ("name", .text "dns")]),
    ("spec", .object [("ports", .list dnsPorts)])]

def dnsConfig : Config := { clusterName := .text "prod", vpcId := .text "vpc-1", nameStem := .text "nlb" }

theorem dns_shares_listener :
    ∃ specs, listenerSpecs dnsService {} = .ok specs ∧ specs.map (·.port) = [53, 80] ∧
      ∀ spec ∈ specs, Serves (.text "dns") {} dnsPorts spec := by
  have hvalid : dnsConfig.validate = .ok dnsConfig :=
    Config.validateWith_eq_ok_iff.2 ⟨rfl, rfl, rfl, rfl, 3, rfl, by decide, .text "nlb", rfl, rfl, rfl⟩
  have hdeclared : ∀ name number protocol,
      IsDeclared (protocolPort name number protocol) := fun name number protocol =>
    ⟨⟨number, rfl⟩, .inr ⟨protocol, rfl⟩, fun _ => ⟨_, rfl⟩⟩
  have hps : ∀ p ∈ dnsPorts, IsDeclared p := by
    simp only [dnsPorts, List.mem_cons, List.not_mem_nil, or_false, forall_eq_or_imp, forall_eq]
    exact ⟨hdeclared _ _ _, hdeclared _ _ _, hdeclared _ _ _⟩
  have hparse : ServiceSettings.parse dnsConfig (.object []) = .ok {} := rfl
  have hname : metaField dnsService "name" = .ok (.text "dns") := rfl
  have hports : ports dnsService = .ok dnsPorts := rfl
  obtain ⟨-, hserved⟩ := listenerSpecs_spec hvalid hparse hname hports hps
  have hnone : ∀ n, ¬ Unservable (sharing dnsPorts n) := by
    intro n hn
    by_cases hnil : sharing dnsPorts n = []
    · simp [hnil, Unservable] at hn
    · have hmem : n ∈ [(53 : Int), 80, 53] := sharing_ne_nil_iff.1 hnil
      have hservable : ∀ n ∈ [(53 : Int), 80, 53], ¬ Unservable (sharing dnsPorts n) := by
        unfold Unservable
        decide
      exact hservable n hmem hn
  obtain ⟨specs, hspecs, hports, hserves, -⟩ := hserved hnone
  exact ⟨specs, hspecs, hports.trans (by decide), hserves⟩

end Routing

end Balancer
