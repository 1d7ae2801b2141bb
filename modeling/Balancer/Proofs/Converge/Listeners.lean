import Balancer.Converge.Listeners
import Balancer.Proofs.Cloud.Requests

/-!
# Converging listeners

* `On a k l` : the listener belongs to a load balancer and to a port; `Knows` : a table of described listeners
  tells of a port what there is on it;
* `OnPorts a K s u` : of listeners, only those of a load balancer on some ports differ;
* `ListenerMet` : the listener of a port is there and has its protocol and its actions. `ensureListeners`
  brings that about for all ports, rests where it holds and can be done again from any state that it visits.
-/

namespace Balancer

set_option autoImplicit false

namespace Converge

open Cluster Routing Resources

/-! ## Actions -/

/-- One action can be put in order. -/
theorem normalize_numbered (action : Fields) :
    ∃ ns, normalize (.list ((numbered [action]).map .object)) = .ok ns :=
  ⟨_, rfl⟩

/-- What is compared of an action whose parts are texts. -/
theorem normalize_texts {action : Fields} {type arn : String} (ht : Fields.get action "Type" = .text type)
    (ha : Fields.get action "TargetGroupArn" = .text arn) :
    normalize (.list ((numbered [action]).map .object)) =
      .ok [[("Type", .text type), ("TargetGroupArn", .text arn), ("Order", .int 1)]] := by
  have hget : ∀ k, Fields.get (Entries.put "Order" (.int 1) action) k = if "Order" =
      k then .int 1 else Fields.get action k :=
    fun k => by simp [Fields.get_put]
  have hcomparable : comparable (.object (Entries.put "Order" (.int 1) action)) =
      .ok [("Type", .text type), ("TargetGroupArn", .text arn), ("Order", .int 1)] := by
    simp [comparable, comparedFields, Value.fieldsFor, hget, ht, ha, bind, Except.bind, pure,
      Except.pure, Value.same, Value.alike, Value.isDefinite]
  have helements : (Value.list ((numbered [action]).map .object)).elementsIfAny =
      .ok [.object (Entries.put "Order" (.int 1) action)] := rfl
  simp [normalize, helements, hcomparable, bind, Except.bind, pure, Except.pure]

theorem sameActions_texts (type arn : String) :
    sameActions [[("Type", .text type), ("TargetGroupArn", .text arn), ("Order", .int 1)]]
      [[("Type", .text type), ("TargetGroupArn", .text arn), ("Order", .int 1)]] = true := by
  simp [sameActions, Value.same, Value.isDefinite, Value.alike, Value.alikeItems,
    Value.alikeFields, Value.alikeField, Entries.find?, Number.alike]

theorem exists_numbered {settings : ServiceSettings} {b : Backend} {groups : TargetGroups}
    {actions : List Fields} (h : buildActions settings b groups = .ok actions) :
    ∃ action, actions = numbered [action] := by
  unfold buildActions at h
  split at h
  · obtain ⟨action, -, h⟩ := bind_eq_ok_iff.1 h
    cases h
    exact ⟨action, rfl⟩
  · obtain ⟨key, -, h⟩ := bind_eq_ok_iff.1 h
    split at h
    · cases h
    · cases h
      exact ⟨_, rfl⟩

/-! ## Listeners on ports -/

/-- The listener belongs to a load balancer and to a port. -/
def On (a : String) (k : Key) (l : Fields) : Prop :=
  Fields.get l "LoadBalancerArn" = .text a ∧ ∃ k', Fields.item l "Port" = .ok k'.toValue ∧ (k == k') = true

/-- The listeners of a load balancer belong to ports. -/
def Portful (a : String) (s : Resources) : Prop :=
  ∀ k l, s.listeners.get? k = some l → Fields.get l "LoadBalancerArn" = .text a →
    ∃ k' : Key, Fields.item l "Port" = .ok k'.toValue

/-- What is described of a port is what there is on it. -/
def Knows (current : Table Key Value) (a : String) (s : Resources) (k : Key) : Prop :=
  match current.get? k with
  | some v => ∃ arn l, v = .object l ∧ s.listeners.get? (.text arn) = some l ∧ On a k l
  | none => ∀ k' l, s.listeners.get? k' = some l → ¬ On a k l

/-- Of listeners, only those of a load balancer on some ports differ. -/
structure OnPorts (a : String) (K : Key → Prop) (s u : Resources) : Prop where
  same : ∃ n ls, u = { s with nextId := n, listeners := ls }
  kept : ∀ k l, s.listeners.get? k = some l → (∀ p, K p → ¬ On a p l) → u.listeners.get? k = some l
  new : ∀ k l, u.listeners.get? k = some l → s.listeners.get? k = some l ∨ ∃ p, K p ∧ On a p l

section

variable {a : String} {k k' : Key} {l l' : Fields} {K K' : Key → Prop} {s t u : Resources}
  {current : Table Key Value}

theorem On.congr (h : On a k l) (hk : (k == k') = true) : On a k' l := by
  obtain ⟨hlb, p, hp, hkp⟩ := h
  exact ⟨hlb, p, hp, BEq.trans (BEq.symm hk) hkp⟩

theorem On.unique (h : On a k l) (h' : On a k' l) : (k == k') = true := by
  obtain ⟨-, p, hp, hk⟩ := h
  obtain ⟨-, p', hp', hk'⟩ := h'
  rw [hp] at hp'
  obtain rfl := Key.toValue_inj (Except.ok.inj hp')
  exact BEq.trans hk (BEq.symm hk')

/-- There is one listener on a port. -/
theorem On.arn_unique {arn arn' : Key} (hs : s.WellFormed) (hl : s.listeners.get? arn = some l)
    (hl' : s.listeners.get? arn' = some l') (h : On a k l) (h' : On a k l') : arn = arn' := by
  obtain ⟨hlb, p, hp, hk⟩ := h
  obtain ⟨hlb', p', hp', hk'⟩ := h'
  exact hs.port hl hl' hlb hlb' (Fields.get_of_item hp) (Fields.get_of_item hp') (BEq.trans (BEq.symm hk) hk')

namespace OnPorts

theorem refl (a : String) (K : Key → Prop) (s : Resources) : OnPorts a K s s :=
  ⟨⟨_, _, rfl⟩, fun _ _ h _ => h, fun _ _ h => .inl h⟩

theorem mono (h : OnPorts a K s u) (hK : ∀ p, K p → K' p) : OnPorts a K' s u where
  same := h.same
  kept k l hl hp := h.kept k l hl fun p hk => hp p (hK p hk)
  new k l hl := (h.new k l hl).imp_right fun ⟨p, hp, hon⟩ => ⟨p, hK p hp, hon⟩

theorem trans (h : OnPorts a K s t) (h' : OnPorts a K t u) : OnPorts a K s u where
  same := by
    obtain ⟨n, ls, rfl⟩ := h.same
    obtain ⟨n', ls', rfl⟩ := h'.same
    exact ⟨n', ls', rfl⟩
  kept k l hl hp := h'.kept k l (h.kept k l hl hp) hp
  new k l hl := (h'.new k l hl).elim (h.new k l) .inr

/-- What is known of another port stays known. -/
theorem knows (h : OnPorts a K s t) (hk : ∀ p, K p → (k == p) = false) (hc : Knows current a s k) :
    Knows current a t k := by
  unfold Knows at hc ⊢
  cases hget : current.get? k with
  | some v =>
    simp only [hget] at hc
    obtain ⟨arn, l, rfl, hl, hon⟩ := hc
    refine ⟨arn, l, rfl, h.kept _ l hl fun p hp hon' => ?_, hon⟩
    exact absurd (hon.unique hon') (by simp [hk p hp])
  | none =>
    simp only [hget] at hc
    intro k' l hl hon
    rcases h.new k' l hl with hl | ⟨p, hp, hon'⟩
    · exact hc k' l hl hon
    · exact absurd (hon.unique hon') (by simp [hk p hp])

theorem portful (h : OnPorts a K s t) (hs : Portful a s) : Portful a t := by
  intro k l hl hlb
  rcases h.new k l hl with hl | ⟨p, -, -, k', hk', -⟩
  · exact hs k l hl hlb
  · exact ⟨k', hk'⟩

end OnPorts

/-! ## Described listeners -/

theorem mem_listenersOf : l ∈ s.listenersOf (.text a) ↔
    ∃ k, s.listeners.get? k = some l ∧ Fields.get l "LoadBalancerArn" = .text a := by
  unfold listenersOf
  rw [List.mem_filter, Table.mem_values_iff, Value.same_text_iff, exists_and_right]

/-- The table of described listeners. -/
theorem knows_byPort (hs : s.WellFormed) (h : byPort ((s.listenersOf (.text a)).map .object) = .ok current) :
    Portful a s ∧ ∀ k, Knows current a s k := by
  obtain ⟨ps, hps, h⟩ := bind_eq_ok_iff.1 h
  cases h
  have hmem : ∀ e ∈ ps, ∃ l ∈ s.listenersOf (.text a), e.2 = .object l ∧
      Fields.item l "Port" = .ok e.1.toValue := by
    intro e he
    obtain ⟨v, hv, h⟩ := mem_of_mapM hps e he
    obtain ⟨l, hl, rfl⟩ := List.mem_map.1 hv
    obtain ⟨p, hp, h⟩ := bind_eq_ok_iff.1 h
    obtain ⟨k, hk, h⟩ := bind_eq_ok_iff.1 h
    cases h
    exact ⟨l, hl, rfl, Value.eq_toValue_of_key hk ▸ hp⟩
  have hall : ∀ l ∈ s.listenersOf (.text a), ∃ k, (k, Value.object l) ∈ ps := by
    intro l hl
    obtain ⟨e, he, h⟩ := exists_of_mapM hps (.object l) (List.mem_map_of_mem hl)
    obtain ⟨p, -, h⟩ := bind_eq_ok_iff.1 h
    obtain ⟨k, -, h⟩ := bind_eq_ok_iff.1 h
    cases h
    exact ⟨k, he⟩
  have hitem : ∀ k l, (k, Value.object l) ∈ ps → Fields.item l "Port" = .ok k.toValue := by
    intro k l he
    obtain ⟨l', -, hl', hp⟩ := hmem _ he
    cases hl'
    exact hp
  constructor
  · intro k l hl hlb
    obtain ⟨k', he⟩ := hall l (mem_listenersOf.2 ⟨k, hl, hlb⟩)
    exact ⟨k', hitem k' l he⟩
  · intro k
    unfold Knows
    cases hget : (Table.ofList ps).get? k with
    | some v =>
      rw [Table.get?_ofList] at hget
      obtain ⟨k', hkk, he⟩ := Entries.mem_of_find? hget
      obtain ⟨l, hl, rfl, hp⟩ := hmem _ (List.mem_reverse.1 he)
      obtain ⟨key, hkey, hlb⟩ := mem_listenersOf.1 hl
      obtain ⟨arn, rfl, -⟩ := hs.listenerOwn hkey
      exact ⟨arn, l, rfl, hkey, hlb, k', hp, BEq.symm hkk⟩
    | none =>
      rw [Table.get?_ofList, Entries.find?_eq_none_iff] at hget
      rintro key l hl ⟨hlb, p, hp, hkp⟩
      obtain ⟨k', he⟩ := hall l (mem_listenersOf.2 ⟨key, hl, hlb⟩)
      rw [hitem k' l he] at hp
      have := hget _ (List.mem_reverse.2 he)
      obtain rfl := Key.toValue_inj (Except.ok.inj hp)
      rw [BEq.comm, hkp] at this
      cases this

theorem isOk_byPort (h : Portful a s) :
    ∃ current, byPort ((s.listenersOf (.text a)).map .object) = .ok current := by
  obtain ⟨ps, hps⟩ : ∃ ps, ((s.listenersOf (.text a)).map Value.object).mapM
      (fun l => do return (← (← l.item "Port").key, l)) = (.ok ps : Except Error (List (Key × Value))) := by
    refine isOk_mapM fun v hv => ?_
    obtain ⟨l, hl, rfl⟩ := List.mem_map.1 hv
    obtain ⟨k, hk, hlb⟩ := mem_listenersOf.1 hl
    obtain ⟨p, hp⟩ := h k l hk hlb
    exact ⟨(p, .object l), by simp [hp, bind, Except.bind, pure, Except.pure]⟩
  exact ⟨.ofList ps, by rw [byPort, hps]; rfl⟩

end

/-! ## One listener -/

/-- The listener has what was written to it. -/
structure Written (spec : ListenerSpec) (actions : List Fields) (l : Fields) : Prop where
  port : Entries.find? "Port" l = some (.int spec.port)
  protocol : Entries.find? "Protocol" l = some spec.protocol
  actions : Entries.find? "DefaultActions" l = some (.list (actions.map .object))

/-- The listener of a port is there and has its protocol and its actions. -/
def ListenerMet (a : String) (spec : ListenerSpec) (actions : List Fields) (u : Resources) : Prop :=
  ∃ arn l, u.listeners.get? (.text arn) = some l ∧ On a (portKey spec) l ∧
    (listenerDiffers (.object l) spec.protocol (.list (actions.map .object)) = .ok false ∨
      Written spec actions l ∧ u.Admits spec.protocol (actions.map .object))

/-- The protocol and the actions of a listener equal themselves. -/
def DefiniteListener (spec : ListenerSpec) (actions : List Fields) : Prop :=
  spec.protocol.same spec.protocol = true ∧
    ∀ ns, normalize (.list (actions.map .object)) = .ok ns → sameActions ns ns = true

section

variable {a arn : String} {spec : ListenerSpec} {actions ns : List Fields}
  {current : Table Key Value} {l : Fields} {s t u : Resources}

theorem actionsOf_listenerParams (known : String × Value) (h : known.1 ≠ "DefaultActions") :
    actionsOf (listenerParams known spec actions) = .ok (actions.map .object) := by
  have hget : Fields.get (listenerParams known spec actions) "DefaultActions" =
      .list (actions.map .object) := by
    simp [Fields.get, listenerParams, Entries.find?, h]
  unfold actionsOf
  rw [hget, Value.elementsIfAny]
  cases actions <;> rfl

/-- What was written can be compared, and is found equal if it equals itself. -/
theorem listenerDiffers_of_written (h : Written spec actions l)
    (hn : normalize (.list (actions.map .object)) = .ok ns) :
    ∃ b, listenerDiffers (.object l) spec.protocol (.list (actions.map .object)) = .ok b ∧
      (DefiniteListener spec actions → b = false) := by
  have hprotocol : Fields.get l "Protocol" = spec.protocol := by rw [Fields.get, h.protocol]; rfl
  have hactions : Fields.get l "DefaultActions" = .list (actions.map .object) := by
    rw [Fields.get, h.actions]; rfl
  unfold listenerDiffers
  simp only [Value.get_object, hprotocol, hactions, hn, bind, Except.bind]
  by_cases hs : spec.protocol.same spec.protocol
  · refine ⟨!sameActions ns ns, by simp [hs, pure, Except.pure], fun hd => ?_⟩
    rw [hd.2 ns hn]
    rfl
  · exact ⟨true, by simp [hs, pure, Except.pure], fun hd => absurd hd.1 hs⟩

/-- A listener that is met has the protocol and, as they are compared, the actions. -/
theorem ListenerMet.agrees (h : ListenerMet a spec actions u)
    (hn : normalize (.list (actions.map .object)) = .ok ns) (hs : sameActions ns ns = true) :
    ∃ arn l current, u.listeners.get? (.text arn) = some l ∧ On a (portKey spec) l ∧
      (Fields.get l "Protocol").Agrees spec.protocol ∧
      normalize (Fields.get l "DefaultActions") = .ok current ∧ sameActions current ns = true := by
  obtain ⟨arn, l, hl, hon, hd | ⟨hw, -⟩⟩ := h
  · unfold listenerDiffers at hd
    simp only [Value.get_object, hn, bind, Except.bind] at hd
    cases hprotocol : (Fields.get l "Protocol").same spec.protocol with
    | false => simp [hprotocol, pure, Except.pure] at hd
    | true =>
      cases hcurrent : normalize (Fields.get l "DefaultActions") with
      | error e => simp [hprotocol, hcurrent] at hd
      | ok current =>
        refine ⟨arn, l, current, hl, hon, .inr hprotocol, hcurrent, ?_⟩
        simpa [hprotocol, hcurrent, pure, Except.pure] using hd
  · refine ⟨arn, l, ns, hl, hon, .inl ?_, ?_, hs⟩
    · rw [Fields.get, hw.protocol]
      rfl
    · rw [← hn, Fields.get, hw.actions]
      rfl

/-- A listener that is not on the port of another one. -/
theorem portFree_of_on (hl : On a (portKey spec) l)
    (hother : ∀ k l', s.listeners.get? k = some l' → On a (portKey spec) l' → k = .text arn) :
    s.PortFree arn l := by
  intro k l' lb p p' hk hne hlb hlb' hp hp'
  obtain ⟨hlb₀, q, hq, hkq⟩ := hl
  rw [hlb₀] at hlb
  cases hlb
  rw [Fields.get_of_item hq] at hp
  obtain rfl := Key.toValue_inj hp
  refine Bool.eq_false_iff.2 fun hpp => hne (hother k l' hk ⟨hlb', p', ?_, BEq.trans hkq hpp⟩)
  -- a port that is missing reads as null, which is on no port
  unfold Fields.get at hp'
  unfold Fields.item
  cases hf : Entries.find? "Port" l' with
  | some v =>
    rw [hf] at hp'
    simp only [Option.getD_some] at hp'
    rw [hp']
  | none =>
    rw [hf] at hp'
    simp only [Option.getD_none] at hp'
    cases p' with
    | null =>
      have := BEq.trans hkq hpp
      rw [Key.beq_iff_meaning] at this
      cases this
    | _ => cases hp'

theorem onPorts_insert {n : Nat} (hon : On a (portKey spec) l)
    (hbefore : ∀ l₀, s.listeners.get? (.text arn) = some l₀ → On a (portKey spec) l₀) :
    OnPorts a (· = portKey spec) s { s with nextId := n, listeners := s.listeners.insert (.text arn) l } where
  same := ⟨_, _, rfl⟩
  kept k l₀ hl hp := by
    refine Table.get?_insert_text_iff.2 (.inr ⟨?_, hl⟩)
    rintro rfl
    exact hp _ rfl (hbefore l₀ hl)
  new k l₀ hl := by
    rcases Table.get?_insert_text_iff.1 hl with ⟨-, rfl⟩ | ⟨-, hl⟩
    · exact .inr ⟨_, rfl, hon⟩
    · exact .inl hl

theorem admits_of_checkListener {method : String} {own : Value} {known : String × Value}
    (hk : known.1 ∉ ["DefaultActions", "Protocol"])
    (h : s.checkListener method own (listenerParams known spec actions) = .ok ()) :
    s.Admits spec.protocol (actions.map .object) := by
  rw [List.mem_cons, List.mem_singleton, not_or] at hk
  obtain ⟨lb, -, h⟩ := bind_eq_ok_iff.1 h
  obtain ⟨_, -, h⟩ := bind_eq_ok_iff.1 h
  obtain ⟨as, has, h⟩ := bind_eq_ok_iff.1 h
  rw [actionsOf_listenerParams known hk.1] at has
  cases has
  refine (checkProtocol_eq_ok_iff ?_).1 h
  simp [Fields.item, listenerParams, Entries.find?, hk.2]

/-- The description of a new listener. -/
def newListener (a : String) (n : Nat) (spec : ListenerSpec) (actions : List Fields) : Fields :=
  Entries.put "ListenerArn" (.text (listenerArn n)) (listenerParams ("LoadBalancerArn", .text a) spec actions)

theorem does_createListener
    (hc : s.checkListener "create_listener" .null
      (listenerParams ("LoadBalancerArn", .text a) spec actions) = .ok ()) :
    (createListener (.text a) spec actions).Does s (.object (newListener a s.nextId spec actions))
      (s.addListener (.text (listenerArn s.nextId)) (newListener a s.nextId spec actions)) := by
  have hitem : (Value.object (newListener a s.nextId spec actions)).item "ListenerArn" =
      .ok (.text (listenerArn s.nextId)) := rfl
  refine (Program.does_answer (perform_createListener s _ hc)).after ((Program.does_lift hitem _).before ?_)
  exact (Program.does_info _ _ _).before (Program.does_pure _ _)

/-- The listener of a port was ensured: it is there, and at most it was written. -/
structure Ensured (a : String) (spec : ListenerSpec) (actions : List Fields) (s t : Resources) : Prop where
  met : ListenerMet a spec actions t
  wellFormed : t.WellFormed
  nextId : s.nextId ≤ t.nextId
  onPorts : OnPorts a (· = portKey spec) s t
  kept : ∀ k l, s.listeners.get? k = some l → On a (portKey spec) l →
    ∃ l', t.listeners.get? k = some l' ∧ On a (portKey spec) l'
  written : ∀ k l, t.listeners.get? k = some l →
    s.listeners.get? k = some l ∨ On a (portKey spec) l ∧ Written spec actions l

theorem ensured_insert {n : Nat} (hid : s.nextId ≤ n) (hon : On a (portKey spec) l)
    (hwritten : Written spec actions l) (hadmits : s.Admits spec.protocol (actions.map .object))
    (hwf : ({ s with nextId := n, listeners := s.listeners.insert (.text arn) l } : Resources).WellFormed)
    (hbefore : ∀ l₀, s.listeners.get? (.text arn) = some l₀ → On a (portKey spec) l₀) :
    Ensured a spec actions s { s with nextId := n, listeners := s.listeners.insert (.text arn) l } where
  met := ⟨arn, l, Table.get?_insert_self _ _ _, hon, .inr ⟨hwritten, hadmits⟩⟩
  wellFormed := hwf
  nextId := hid
  onPorts := onPorts_insert hon hbefore
  kept k l₀ hk hon₀ := by
    by_cases hkk : (Key.text arn == k) = true
    · exact ⟨l, (Table.get?_insert _ _ _ _).trans (if_pos hkk), hon⟩
    · exact ⟨l₀, ((Table.get?_insert _ _ _ _).trans (if_neg hkk)).trans hk, hon₀⟩
  written k l' hk := by
    rcases Table.get?_insert_text_iff.1 hk with ⟨-, rfl⟩ | ⟨-, hk⟩
    · exact .inr ⟨hon, hwritten⟩
    · exact .inl hk

/-- A listener on a free port is created, or refused. -/
theorem createListener_cases (hs : s.WellFormed)
    (hfree : ∀ k l, s.listeners.get? k = some l → ¬ On a (portKey spec) l) :
    (createListener (.text a) spec actions).Fails s ∨
      ∃ v t, (createListener (.text a) spec actions).Does s v t ∧ Ensured a spec actions s t := by
  cases hc : s.checkListener "create_listener" .null
    (listenerParams ("LoadBalancerArn", .text a) spec actions) with
  | error e => exact .inl ((Program.fails_answer (perform_createListener_refused s _ hc)).bind _)
  | ok _ =>
    have harn : Numbered s.nextId (listenerArn s.nextId) := numbered_listenerArn s.nextId
    have hon : On a (portKey spec) (newListener a s.nextId spec actions) := ⟨rfl, portKey spec, rfl, BEq.rfl⟩
    have hwritten : Written spec actions (newListener a s.nextId spec actions) := ⟨rfl, rfl, rfl⟩
    have hadmits : s.Admits spec.protocol (actions.map .object) := admits_of_checkListener (by simp) hc
    have hwf := hs.addListener harn rfl (portFree_of_on hon fun k l hl hon' => absurd hon' (hfree k l hl))
    refine .inr ⟨_, _, does_createListener hc,
      ensured_insert (Nat.le_succ _) hon hwritten hadmits hwf fun l₀ hl => ?_⟩
    rw [hs.listenerFresh (Nat.le_refl _) harn] at hl
    cases hl

/-- The listener on a port with the parameters of a modification. -/
def modifiedListener (arn : String) (spec : ListenerSpec) (actions : List Fields) (l : Fields) : Fields :=
  (listenerParams ("ListenerArn", .text arn) spec actions).foldl (fun l f => Entries.put f.1 f.2 l) l

theorem written_modifiedListener (arn : String) (spec : ListenerSpec) (actions : List Fields) (l : Fields) :
    Written spec actions (modifiedListener arn spec actions l) := by
  constructor <;> simp [modifiedListener, listenerParams, Entries.find?_put]

theorem get_modifiedListener {k : String} (hk : k ∉ ["ListenerArn", "Port", "Protocol", "DefaultActions"]) :
    Fields.get (modifiedListener arn spec actions l) k = Fields.get l k := by
  simp only [List.mem_cons, List.not_mem_nil, or_false, not_or] at hk
  simp [modifiedListener, listenerParams, Fields.get_put, Ne.symm hk.1, Ne.symm hk.2.1,
    Ne.symm hk.2.2.1, Ne.symm hk.2.2.2]

theorem does_modifyListener (harn : Fields.get l "ListenerArn" = .text arn)
    (hl : s.listeners.get? (.text arn) = some l)
    (hc : s.checkListener "modify_listener" (.text arn)
      (listenerParams ("ListenerArn", .text arn) spec actions) = .ok ()) :
    (modifyListener (.object l) spec actions).Does s (.object (modifiedListener arn spec actions l))
      (s.putListener (.text arn) (modifiedListener arn spec actions l)) := by
  have hitem : (Value.object l).item "ListenerArn" = .ok (.text arn) := Fields.item_of_get_text harn
  refine (Program.does_lift hitem s).before
    ((Program.does_answer (perform_modifyListener s arn _ rfl hl hc)).after ?_)
  exact (Program.does_info _ _ _).before (Program.does_pure _ _)

/-- A listener is modified, or the modification is refused. -/
theorem modifyListener_cases (hs : s.WellFormed) (hl : s.listeners.get? (.text arn) = some l)
    (hon : On a (portKey spec) l) :
    (modifyListener (.object l) spec actions).Fails s ∨
      ∃ v t, (modifyListener (.object l) spec actions).Does s v t ∧ Ensured a spec actions s t := by
  obtain ⟨arn', harn', harn⟩ := hs.listenerOwn hl
  cases harn'
  have hitem : (Value.object l).item "ListenerArn" = .ok (.text arn) := Fields.item_of_get_text harn
  cases hc : s.checkListener "modify_listener" (.text arn)
    (listenerParams ("ListenerArn", .text arn) spec actions) with
  | error e =>
    have hrefused := Program.fails_answer (perform_modifyListener_refused s arn _ rfl hc)
    exact .inl ((Program.does_lift hitem s).fails_bind (hrefused.bind _))
  | ok _ =>
    have hwritten := written_modifiedListener arn spec actions l
    have hadmits : s.Admits spec.protocol (actions.map .object) := admits_of_checkListener (by simp) hc
    have hon' : On a (portKey spec) (modifiedListener arn spec actions l) := by
      refine ⟨by rw [get_modifiedListener (by decide), hon.1], portKey spec, ?_, BEq.rfl⟩
      rw [Fields.item, hwritten.port]
      rfl
    have hown : Fields.get (modifiedListener arn spec actions l) "ListenerArn" = .text arn := by
      simp [modifiedListener, listenerParams, Fields.get_put]
    have hwf :=
      hs.putListener hl hown (portFree_of_on hon' fun k l' hl' hon' => hon'.arn_unique hs hl' hl hon)
    refine .inr ⟨_, _, does_modifyListener harn hl hc,
      ensured_insert (Nat.le_refl _) hon' hwritten hadmits hwf fun l₀ hl₀ => ?_⟩
    rw [hl] at hl₀
    cases hl₀
    exact hon

/-- What `ensureListener` does: it fails before it has changed anything, or the listener of the port is
there after one step. -/
theorem ensureListener_cases (hs : s.WellFormed) (hknow : Knows current a s (portKey spec)) :
    (ensureListener (.text a) (current.get? (portKey spec)) spec actions).Fails s ∨
      ∃ v t, (ensureListener (.text a) (current.get? (portKey spec)) spec actions).Does s v t ∧
        Ensured a spec actions s t := by
  unfold Knows at hknow
  unfold ensureListener
  cases hget : current.get? (portKey spec) with
  | none =>
    simp only [hget] at hknow
    exact createListener_cases hs hknow
  | some v =>
    simp only [hget] at hknow
    obtain ⟨arn, l, rfl, hl, hon⟩ := hknow
    dsimp only
    cases hd : listenerDiffers (.object l) spec.protocol (.list (actions.map .object)) with
    | error e => exact .inl ((Program.fails_lift rfl s).bind _)
    | ok b =>
      cases b with
      | false =>
        exact .inr ⟨.object l, s, (Program.does_lift rfl s).before (Program.does_pure _ s),
          ⟨arn, l, hl, hon, .inl hd⟩, hs,
          Nat.le_refl _, OnPorts.refl _ _ s, fun _ l hl hon => ⟨l, hl, hon⟩, fun _ _ hl => .inl hl⟩
      | true =>
        rcases modifyListener_cases hs hl hon with hfail | ⟨v, t, hdoes, h⟩
        · exact .inl ((Program.does_lift rfl s).fails_bind hfail)
        · exact .inr ⟨v, t, (Program.does_lift rfl s).before hdoes, h⟩

/-- Nothing refuses to modify a listener into what it is. -/
theorem checkListener_of_met (hu : u.WellFormed) (hport : Portful a u)
    (hl : u.listeners.get? (.text arn) = some l) (hon : On a (portKey spec) l)
    (h : u.Admits spec.protocol (actions.map .object)) :
    u.checkListener "modify_listener" (.text arn)
      (listenerParams ("ListenerArn", .text arn) spec actions) = .ok () := by
  have hlb : u.lbOfListener (.text arn) (listenerParams ("ListenerArn", .text arn) spec actions) =
      .ok (.text a) := by
    have hholds : (Fields.get (listenerParams ("ListenerArn", .text arn) spec actions)
        "LoadBalancerArn").holds = false := by
      simp [Fields.get, listenerParams, Entries.find?, Value.holds]
    simp [lbOfListener, hholds, at_, hl, Fields.item_of_get_text hon.1, bind, Except.bind, pure, Except.pure]
  have hcheck : checkPort "modify_listener" (.text arn) (.text a)
      (listenerParams ("ListenerArn", .text arn) spec actions) u.listeners.entries = .ok () := by
    refine checkPort_eq_ok_iff.2 fun e he hne hlb => ?_
    have hget := Table.get?_of_mem he
    have hlb := (Value.same_text_iff _ _).1 hlb
    obtain ⟨k, hk⟩ := hport e.1 e.2 hget hlb
    refine ⟨k.toValue, .int spec.port, hk, rfl, Bool.eq_false_iff.2 fun hs => ?_⟩
    have hkey : (k == portKey spec) = true := Key.beq_of_same hs
    rw [On.arn_unique hu hget hl ⟨hlb, k, hk, BEq.symm hkey⟩ hon] at hne
    simp [Key.toValue] at hne
  have hprotocol : u.checkProtocol "modify_listener" (listenerParams ("ListenerArn", .text arn) spec actions)
      (actions.map .object) = .ok () := (checkProtocol_eq_ok_iff rfl).2 h
  have hactions : actionsOf (listenerParams ("ListenerArn", .text arn) spec actions) =
      .ok (actions.map .object) :=
    actionsOf_listenerParams _ (show ("ListenerArn" : String) ≠ "DefaultActions" by decide)
  simp only [checkListener, hlb, hcheck, hactions, hprotocol, bind, Except.bind]

/-- Where the listener of a port is there, nothing more is done to it. -/
theorem rests_ensureListener (hu : u.WellFormed) (hport : Portful a u)
    (hknow : Knows current a u (portKey spec)) (hn : normalize (.list (actions.map .object)) = .ok ns)
    (h : ListenerMet a spec actions u) :
    (ensureListener (.text a) (current.get? (portKey spec)) spec actions).Rests
      (DefiniteListener spec actions) (fun _ => ())
      u () := by
  obtain ⟨arn, l, hl, hon, hmet⟩ := h
  have hget : current.get? (portKey spec) = some (.object l) := by
    unfold Knows at hknow
    cases hc : current.get? (portKey spec) with
    | none =>
      simp only [hc] at hknow
      exact absurd hon (hknow _ l hl)
    | some v =>
      simp only [hc] at hknow
      obtain ⟨arn', l', rfl, hl', hon'⟩ := hknow
      rw [hon'.arn_unique hu hl' hl hon, hl] at hl'
      cases hl'
      rfl
  have hquiet : listenerDiffers (.object l) spec.protocol (.list (actions.map .object)) = .ok false →
      (ensureListener (.text a) (some (.object l)) spec actions).Ends u (.object l) [] u := fun hd =>
    Program.ends_lift_bind.2 ⟨false, hd, Program.ends_pure.2 ⟨rfl, rfl, rfl⟩⟩
  rw [hget]
  rcases hmet with hd | ⟨hw, hadmits⟩
  · exact ⟨_, [], hquiet hd, rfl, fun _ => rfl⟩
  · obtain ⟨b, hd, hq⟩ := listenerDiffers_of_written hw hn
    cases b with
    | false => exact ⟨_, [], hquiet hd, rfl, fun _ => rfl⟩
    | true =>
      obtain ⟨arn', harn', harn⟩ := hu.listenerOwn hl
      cases harn'
      have hsame : modifiedListener arn spec actions l = l := by
        refine Entries.foldl_put_of_find? ?_
        simp only [listenerParams, List.forall_mem_cons, List.not_mem_nil, false_imp_iff,
          implies_true, and_true]
        exact ⟨Fields.find?_of_get_text harn, hw.port, hw.protocol, hw.actions⟩
      have hdoes := does_modifyListener harn hl (checkListener_of_met hu hport hl hon hadmits)
      rw [hsame, putListener_of_get? hl] at hdoes
      have hstep : (ensureListener (.text a) (some (.object l)) spec actions).Does u (.object l) u :=
        (Program.does_lift hd u).before hdoes
      obtain ⟨⟨rs, he⟩, -⟩ := hstep
      exact ⟨_, rs, he, rfl, fun h => nomatch hq h⟩

end

/-! ## The listeners of all ports -/

section

variable {a : String} {pairs : List (ListenerSpec × List Fields)}
  {current current' : Table Key Value} {K : Key → Prop} {spec : ListenerSpec}
  {actions : List Fields} {s t u : Resources}

/-- The ports of listeners. -/
def PortsOf (pairs : List (ListenerSpec × List Fields)) (p : Key) : Prop := ∃ e ∈ pairs, p = portKey e.1

/-- No port is that of two listeners. -/
def DistinctPorts (pairs : List (ListenerSpec × List Fields)) : Prop :=
  pairs.Pairwise fun e e' => (portKey e.1 == portKey e'.1) = false

theorem ListenerMet.of_onPorts (h : ListenerMet a spec actions t) (hp : OnPorts a K t u)
    (hK : ∀ p, K p → (portKey spec == p) = false) : ListenerMet a spec actions u := by
  obtain ⟨arn, l, hl, hon, hmet⟩ := h
  refine ⟨arn, l, hp.kept _ l hl fun p hKp hon' => ?_, hon, hmet.imp_right fun ⟨hw, hadmits⟩ => ⟨hw, ?_⟩⟩
  · exact absurd (hon.unique hon') (by simp [hK p hKp])
  · obtain ⟨n, ls, rfl⟩ := hp.same
    exact hadmits

theorem ne_of_portsOf {e : ListenerSpec × List Fields} (hd : DistinctPorts (e :: pairs)) :
    ∀ p, PortsOf pairs p → (portKey e.1 == p) = false := by
  rintro p ⟨e', he', rfl⟩
  exact (List.pairwise_cons.1 hd).1 e' he'

/-- What is known of the ports to come stays known. -/
theorem knows_rest {e : ListenerSpec × List Fields} (hd : DistinctPorts (e :: pairs))
    (hknow : ∀ e' ∈ e :: pairs, Knows current a s (portKey e'.1)) (hp : OnPorts a (· = portKey e.1) s t) :
    ∀ e' ∈ pairs, Knows current a t (portKey e'.1) := by
  intro e' he'
  refine hp.knows ?_ (hknow e' (by simp [he']))
  rintro p rfl
  rw [BEq.comm]
  exact (List.pairwise_cons.1 hd).1 e' he'

/-- What holds at first, and stays so whenever a listener is ensured, holds wherever the run is cut off. -/
theorem always_ensureListeners_of {I : Resources → Prop} (hs : s.WellFormed) (hd : DistinctPorts pairs)
    (hknow : ∀ e ∈ pairs, Knows current a s (portKey e.1)) (hI : I s)
    (hstep : ∀ e ∈ pairs, ∀ t u, I t → Ensured a e.1 e.2 t u → I u) :
    (ensureListeners (.text a) current pairs).Always I s := by
  induction pairs generalizing s with
  | nil =>
    rintro u hu
    rwa [Program.visits_pure.1 hu]
  | cons e pairs ih =>
    intro u hu
    unfold ensureListeners at hu
    rcases ensureListener_cases hs (hknow e (by simp)) with hfail | ⟨v, t, hdoes, hensured⟩
    · rwa [(hfail.bind _).2 u hu]
    rcases hdoes.visits_bind hu with rfl | hu
    · exact hI
    have hrest := ih hensured.wellFormed (List.pairwise_cons.1 hd).2 (knows_rest hd hknow hensured.onPorts)
      (hstep e (by simp) s t hI hensured) fun e' he' => hstep e' (by simp [he'])
    rcases Program.visits_bind.1 hu with hu | ⟨ls, t', ht', hu⟩
    · exact hrest u hu
    · rw [Program.visits_pure.1 hu]
      exact hrest.yields ht'

/-- What a run of `ensureListeners` leaves alone, wherever it is cut off. -/
theorem always_ensureListeners (hs : s.WellFormed) (hd : DistinctPorts pairs)
    (hknow : ∀ e ∈ pairs, Knows current a s (portKey e.1)) :
    (ensureListeners (.text a) current pairs).Always
      (fun u => u.WellFormed ∧ OnPorts a (PortsOf pairs) s u) s := by
  refine always_ensureListeners_of hs hd hknow ⟨hs, OnPorts.refl a _ s⟩ fun e he t u ⟨_, hpt⟩ h => ?_
  refine ⟨h.wellFormed, hpt.trans (h.onPorts.mono ?_)⟩
  rintro p rfl
  exact ⟨e, he, rfl⟩

/-- What a run of `ensureListeners` brings about. -/
theorem yields_ensureListeners {ls : List Value} (hs : s.WellFormed) (hd : DistinctPorts pairs)
    (hknow : ∀ e ∈ pairs, Knows current a s (portKey e.1))
    (h : (ensureListeners (.text a) current pairs).Yields s ls t) : ∀ e ∈ pairs, ListenerMet a e.1 e.2 t := by
  induction pairs generalizing s ls with
  | nil => simp
  | cons e pairs ih =>
    unfold ensureListeners at h
    rcases ensureListener_cases hs (hknow e (by simp)) with hfail | ⟨v, t₁, hdoes, hmet, ht, -, hp, -⟩
    · exact absurd h ((hfail.bind _).1 _ _)
    obtain ⟨ls', t', h, hpure⟩ := Program.yields_bind.1 (hdoes.yields_bind_iff.1 h)
    obtain ⟨-, rfl⟩ := Program.yields_pure.1 hpure
    have hknow' := knows_rest hd hknow hp
    have hd' := (List.pairwise_cons.1 hd).2
    have hp' := ((always_ensureListeners ht hd' hknow').yields h).2
    exact List.forall_mem_cons.2 ⟨hmet.of_onPorts hp' (ne_of_portsOf hd), ih ht hd' hknow' h⟩

/-- Where all listeners are there, nothing more is done to them. -/
theorem rests_ensureListeners (hu : u.WellFormed) (hport : Portful a u)
    (hknow : ∀ e ∈ pairs, Knows current a u (portKey e.1))
    (hn : ∀ e ∈ pairs, ∃ ns, normalize (.list (e.2.map .object)) = .ok ns)
    (h : ∀ e ∈ pairs, ListenerMet a e.1 e.2 u) :
    (ensureListeners (.text a) current pairs).Rests (∀ e ∈ pairs, DefiniteListener e.1 e.2)
      (fun _ => ()) u () := by
  induction pairs with
  | nil => exact Program.Rests.of_ends (Program.ends_pure.2 ⟨rfl, rfl, rfl⟩)
  | cons e pairs ih =>
    obtain ⟨hknow, hknow'⟩ := List.forall_mem_cons.1 hknow
    obtain ⟨⟨ns, hn⟩, hn'⟩ := List.forall_mem_cons.1 hn
    obtain ⟨h, h'⟩ := List.forall_mem_cons.1 h
    unfold ensureListeners
    refine Program.Rests.bind
      ((rests_ensureListener hu hport hknow hn h).mono fun hq => hq e (by simp)) fun _ _ => ?_
    refine Program.Rests.bind ((ih hknow' hn' h').mono fun hq e' he' => hq e' (by simp [he'])) fun _ _ => ?_
    exact Program.Rests.of_ends (Program.ends_pure.2 ⟨rfl, rfl, rfl⟩)

theorem knows_unique {k : Key} (hs : s.WellFormed) (h : Knows current a s k) (h' : Knows current' a s k) :
    current.get? k = current'.get? k := by
  unfold Knows at h h'
  cases hc : current.get? k <;> cases hc' : current'.get? k <;> simp only [hc, hc'] at h h'
  · rfl
  · obtain ⟨arn, l, -, hl, hon⟩ := h'
    exact absurd hon (h _ l hl)
  · obtain ⟨arn, l, -, hl, hon⟩ := h
    exact absurd hon (h' _ l hl)
  · obtain ⟨arn, l, rfl, hl, hon⟩ := h
    obtain ⟨arn', l', rfl, hl', hon'⟩ := h'
    rw [hon'.arn_unique hs hl' hl hon, hl] at hl'
    cases hl'
    rfl

theorem ensureListeners_congr
    (h : ∀ e ∈ pairs, current.get? (portKey e.1) = current'.get? (portKey e.1)) (lb : Value) :
    ensureListeners lb current pairs = ensureListeners lb current' pairs := by
  induction pairs with
  | nil => rfl
  | cons e pairs ih =>
    obtain ⟨h, h'⟩ := List.forall_mem_cons.1 h
    unfold ensureListeners
    rw [h, ih h']

/-- Cut off anywhere, `ensureListeners` can be done again, with the listeners as they are described then. -/
theorem resumes_ensureListeners {ls : List Value} (hs : s.WellFormed) (hport : Portful a s)
    (hd : DistinctPorts pairs) (hknow : ∀ e ∈ pairs, Knows current a s (portKey e.1))
    (hn : ∀ e ∈ pairs, ∃ ns, normalize (.list (e.2.map .object)) = .ok ns)
    (h : (ensureListeners (.text a) current pairs).Yields s ls t)
    (hu : (ensureListeners (.text a) current pairs).Visits s u)
    (hknow' : ∀ e ∈ pairs, Knows current' a u (portKey e.1)) :
    ∃ ls', (ensureListeners (.text a) current' pairs).Yields u ls' t := by
  induction pairs generalizing s ls with
  | nil =>
    rw [Program.visits_pure.1 hu]
    exact ⟨ls, h⟩
  | cons e pairs ih =>
    rcases ensureListener_cases hs (hknow e (by simp)) with hfail | ⟨v, t₁, hdoes, hmet, ht, -, hp, -⟩
    · exact absurd h ((hfail.bind _).1 _ _)
    rcases hdoes.visits_bind hu with rfl | hu
    · rw [← ensureListeners_congr fun e he => knows_unique hs (hknow e he) (hknow' e he)]
      exact ⟨ls, h⟩
    obtain ⟨ls₁, t', hrest, hpure⟩ := Program.yields_bind.1 (hdoes.yields_bind_iff.1 h)
    obtain ⟨-, rfl⟩ := Program.yields_pure.1 hpure
    have hu : (ensureListeners (.text a) current pairs).Visits t₁ u := by
      rcases Program.visits_bind.1 hu with hu | ⟨ls', t', ht', hu⟩
      · exact hu
      · rw [Program.visits_pure.1 hu]
        exact ht'.visits
    have hknowt := knows_rest hd hknow hp
    have hd' := (List.pairwise_cons.1 hd).2
    obtain ⟨hwf, hpu⟩ := always_ensureListeners ht hd' hknowt u hu
    obtain ⟨⟨ns, hns⟩, hn'⟩ := List.forall_mem_cons.1 hn
    obtain ⟨hk, hknow'⟩ := List.forall_mem_cons.1 hknow'
    obtain ⟨v', hv', -⟩ := (rests_ensureListener hwf (hpu.portful (hp.portful hport)) hk hns
      (hmet.of_onPorts hpu (ne_of_portsOf hd))).yields
    obtain ⟨ls', hls'⟩ := ih ht (hp.portful hport) hd' hknowt hn' hrest hu hknow'
    exact ⟨v' :: ls', Program.yields_bind.2 ⟨v', u, hv',
      Program.yields_bind.2 ⟨ls', _, hls', Program.yields_pure.2 ⟨rfl, rfl⟩⟩⟩⟩

end

end Converge

end Balancer
