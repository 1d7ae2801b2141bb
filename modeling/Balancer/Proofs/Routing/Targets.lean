import Balancer.Proofs.Cluster.WellFormed
import Balancer.Proofs.Converge.Registration
import Balancer.Proofs.Routing.Shadowed

/-!
# What targets a backend gets

The targets of a backend as the objects of the cluster determine them, without a computation that may fail.

* `textIn`, `numberIn`, `itemsIn` : what a field says. `IsPort`, `IsServicePort`, `IsAddress`, `IsReadySubset`
  : the shapes of the objects that are read;
* `Ordered ts places` : targets for some places, each as often as it is among them, in the order of
  identifiers and ports. Places in another order have the same targets (`Ordered.eq`);
* `receivers`, `Differ`, `OnInstances` : a target on every eligible node, and when there are none instead;
* `matching?`, `placesIn`, `OnAddresses` : a target on every ready address of a subset that has the port, and
  that the port of a health check is found in the same subsets; `addressTargets_placesIn`,
  `endpointPort?_matchingNumbers`;
* `resolveTargets_spec` : `resolveTargets` comes to these, whatever order nodes and subsets are in.
-/

namespace Balancer

set_option autoImplicit false

/-- The cause of a failure is that something is not there, or not yet. -/
def Error.IsMissing : Error → Prop
  | .missing _ | .notFound _ => True
  | _ => False

namespace Routing

open Cluster
open Converge (Place)

/-! ## What objects say -/

/-- The text in a field, empty if there is none. -/
def textIn (v : Value) (k : String) : String :=
  match Fields.get v.fields k with
  | .text s => s
  | _ => ""

/-- The integer in a field, zero if there is none. -/
def numberIn (v : Value) (k : String) : Int :=
  match Fields.get v.fields k with
  | .number (.integer n) => n
  | _ => 0

/-- The elements of the list in a field. -/
def itemsIn (v : Value) (k : String) : List Value :=
  match Fields.get v.fields k with
  | .list vs => vs
  | _ => []

/-- A port with a number, and a name if it has one. -/
structure IsPort (v : Value) : Prop where
  number : ∃ n, HasNumber v n
  name : IsOptionalText (Fields.get v.fields "name")

structure IsServicePort (v : Value) : Prop extends IsPort v where
  nodePort : Fields.get v.fields "nodePort" = .null ∨ ∃ n, Fields.get v.fields "nodePort" = .int n

def IsAddress (v : Value) : Prop := ∃ s, v.item "ip" = .ok (.text s)

/-- A subset of Endpoints. -/
structure IsReadySubset (v : Value) : Prop where
  isObject : ∃ fs, v = .object fs
  ports : (Fields.get v.fields "ports").IsListOf IsPort
  addresses : (Fields.get v.fields "addresses").IsListOf IsAddress

/-- Endpoints whose subsets can be read. -/
structure IsReady (v : Value) : Prop where
  isObject : ∃ fs, v = .object fs
  subsets : (Fields.get v.fields "subsets").IsListOf IsReadySubset

/-! ## What targets there are -/

/-- Targets for some places, in order. -/
def Ordered (ts : List Target) (places : List Place) : Prop :=
  ∃ row : List Place, ts = row.map Place.target ∧ row.Perm places ∧ row.Pairwise fun p q => toLex p ≤ toLex q

/-- Whether a node has neither of the labels that keep targets away. -/
def mayReceive (node : Value) : Bool :=
  (Entries.find? masterLabel (metaOf node "labels").fields).isNone &&
    (Entries.find? excludeLabel (metaOf node "labels").fields).isNone

/-- The stored nodes that may receive targets. -/
def receivers (store : Store) : List Value := store.nodes.values.filter mayReceive

/-- The provider's identifier of a node, empty if it has none. -/
def providerOf (node : Value) : String := textIn (Fields.get node.fields "spec") "providerID"

/-- Where a node receives the traffic for a port. -/
def placeOn (port node : Value) : Place := (Text.afterLast '/' (providerOf node), numberIn port "nodePort")

/-- A backend names the number of a port. -/
def Names (b : Backend) (port : Value) : Prop := b.port = .text (Text.decimal (numberIn port "port"))

/-- A backend serves both protocols, and the ports with the number that it names have
more than one node port. -/
def Differ (ps : List Value) (b : Backend) : Prop :=
  b.protocol = .text "TCP_UDP" ∧ ∃ p ∈ ps, ∃ q ∈ ps, Names b p ∧ Names b q ∧
    Fields.get p.fields "nodePort" ≠ Fields.get q.fields "nodePort"

/-- The port of a subset that belongs to a port of a Service: the first of its name, or for a port
without a name the only one. -/
def matched? (port subset : Value) : Option Value :=
  if textIn port "name" = "" then
    if (itemsIn subset "ports").length = 1 then (itemsIn subset "ports").head? else none
  else (itemsIn subset "ports").find? fun p => textIn p "name" == textIn port "name"

/-- The number of the port of a subset that belongs to a port of a Service. -/
def matching? (port subset : Value) : Option Int := (matched? port subset).map (numberIn · "port")

/-- Where a subset receives the traffic for a port of a Service. -/
def placesIn (port subset : Value) : List Place :=
  (matching? port subset).elim [] fun n => (itemsIn subset "addresses").map fun a => (textIn a "ip", n)

/-- The numbers of the ports that belong to a port of a Service, one for each subset that has one. -/
def matchingNumbers (port endpoints : Value) : List Int :=
  (itemsIn endpoints "subsets").filterMap (matching? port)

/-- What a backend gets on instances. -/
structure OnInstances (store : Store) (ps : List Value) (b : Backend) (port : Value)
    (result : Except Error (List Target)) :
    Prop where
  returns : numberIn port "nodePort" ≠ 0 → ¬ Differ ps b → (∀ node ∈ receivers store, providerOf node ≠ "") →
    ∃ ts, result = .ok ts ∧ Ordered ts ((receivers store).map (placeOn port))
  missing_iff : (∃ e, result = .error e ∧ e.IsMissing) ↔
    numberIn port "nodePort" = 0 ∨ ¬ Differ ps b ∧ ∃ node ∈ receivers store, providerOf node = ""
  configuration_iff : (∃ fault, result = .error (.configuration fault)) ↔
    numberIn port "nodePort" ≠ 0 ∧ Differ ps b

/-- What a backend gets on addresses. -/
structure OnAddresses (stored : Option Value) (port : Value)
    (result : Except Error (List Target)) : Prop where
  returns : ∀ endpoints, stored = some endpoints →
    ∃ ts, result = .ok ts ∧ Ordered ts ((itemsIn endpoints "subsets").flatMap (placesIn port))
  notFound_iff : (∃ key, result = .error (.notFound key)) ↔ stored = none
  agrees : ∀ endpoints ts, stored = some endpoints → result = .ok ts → ts ≠ [] →
    ∃ n, endpointPort? endpoints port = .ok (some n) ∧
      ((∀ m ∈ matchingNumbers port endpoints, ∀ m' ∈ matchingNumbers port endpoints, m = m') →
        ∀ t ∈ ts, t.port = .int n)

section

variable {store store' : Store} {service port node subset endpoints v : Value}
  {b : Backend} {ps vs : List Value} {ts us : List Target} {places places' : List Place}
  {k key s : String} {n : Int}

/-! ## Reading -/

theorem textIn_eq (h : IsOptionalText (Fields.get v.fields k)) (hs : s ≠ "") :
    (Fields.get v.fields k).same (.text s) = (textIn v k == s) := by
  unfold textIn
  obtain h | ⟨t, h⟩ := h
  · rw [h]
    simp [Value.same, Value.isDefinite, Value.alike, hs.symm]
  · rw [h, Value.same_text]

theorem holds_textIn (h : IsOptionalText (Fields.get v.fields k)) :
    (Fields.get v.fields k).holds = true ↔ textIn v k ≠ "" := by
  unfold textIn
  obtain h | ⟨t, h⟩ := h
  · simp [h, Value.holds]
  · simp [h, Value.holds]

theorem items_of_isListOf {P : Value → Prop} (h : (Fields.get v.fields k).IsListOf P) :
    (Fields.get v.fields k).elementsIfAny = .ok (itemsIn v k) ∧
      (Fields.get v.fields k).orElse (.list []) = .list (itemsIn v k) ∧ ∀ x ∈ itemsIn v k, P x := by
  unfold itemsIn
  obtain h | ⟨vs, h, hvs⟩ := h
  · rw [h]
    exact ⟨rfl, rfl, by simp⟩
  · rw [h]
    cases vs with
    | nil => exact ⟨rfl, rfl, hvs⟩
    | cons x vs => exact ⟨rfl, rfl, hvs⟩

theorem HasNumber.exists_fields (h : HasNumber port n) :
    ∃ fs, port = .object fs ∧ Fields.item fs "port" = .ok (.int (numberIn port "port")) := by
  cases port with
  | object fs =>
    refine ⟨fs, rfl, ?_⟩
    have hget : Fields.get (Value.object fs).fields "port" = .int n := Fields.get_of_item h
    rw [numberIn, hget]
    exact h
  | _ => cases h

theorem IsPort.exists_fields (h : IsPort port) :
    ∃ fs, port = .object fs ∧ Fields.item fs "port" = .ok (.int (numberIn port "port")) := by
  obtain ⟨n, hn⟩ := h.number
  exact hn.exists_fields

theorem IsPort.get (h : IsPort port) (k : String) : port.get k = .ok (Fields.get port.fields k) := by
  obtain ⟨fs, rfl, -⟩ := h.exists_fields
  rfl

theorem IsPort.portNumber (h : IsPort port) : portNumber port = .ok (numberIn port "port") := by
  obtain ⟨fs, rfl, hitem⟩ := h.exists_fields
  exact bind_eq_ok_iff.2 ⟨_, hitem, rfl⟩

theorem IsPort.shown_number (h : IsPort port) :
    (Fields.get port.fields "port").shown = Text.decimal (numberIn port "port") := by
  obtain ⟨fs, rfl, hitem⟩ := h.exists_fields
  rw [show Fields.get (Value.object fs).fields "port" = _ from Fields.get_of_item hitem]
  rfl

theorem get_of_isAddress (h : IsAddress v) : v.item "ip" = .ok (.text (textIn v "ip")) := by
  obtain ⟨s, hs⟩ := h
  cases v with
  | object fs =>
    have hget : Fields.get (Value.object fs).fields "ip" = .text s := Fields.get_of_item hs
    rw [textIn, hget]
    exact hs
  | _ => cases hs

/-! ## Order -/

theorem Ordered.eq (h : Ordered ts places) (h' : Ordered us places')
    (hperm : places.Perm places') : ts = us := by
  obtain ⟨row, rfl, hrow, hsorted⟩ := h
  obtain ⟨row', rfl, hrow', hsorted'⟩ := h'
  rw [List.Perm.eq_of_pairwise (fun p q _ _ hpq hqp => toLex.injective (le_antisymm hpq hqp)) hsorted hsorted'
    (hrow.trans (hperm.trans hrow'.symm))]

/-- Every list of places has its targets in order. -/
theorem exists_ordered (places : List Place) :
    ∃ ts, Target.sorted (places.map Place.target) = .ok ts ∧ Ordered ts places := by
  obtain ⟨row, hrow, hperm, hsorted⟩ := sortBy_map Place.before_target (places.map toLex)
  rw [List.map_map] at hrow
  refine ⟨_, hrow, row.map ofLex, by rw [List.map_map]; rfl, ?_, List.pairwise_map.2 hsorted⟩
  simpa [List.map_map, Function.comp_def] using hperm.map ofLex

theorem Ordered.mem_iff (h : Ordered ts places) (t : Target) : t ∈ ts ↔ ∃ p ∈ places, p.target = t := by
  obtain ⟨row, rfl, hperm, -⟩ := h
  simp only [List.mem_map, hperm.mem_iff]

/-! ## Instances -/

theorem isEligible_eq (h : IsNode node) : isEligible node = .ok (mayReceive node) := by
  obtain ⟨m, hm, hlabels⟩ := h.named.get_metadata "labels"
  have hhas : ∀ label : String, ((metaOf node "labels").orElse (.object [])).has (.text label) =
      .ok (Entries.find? label (metaOf node "labels").fields).isSome := fun label => by
    rw [h.labels.orElse_eq]
    rfl
  unfold isEligible mayReceive
  rw [hm]
  show (m.get "labels" >>= _) = _
  rw [hlabels]
  show ((metaOf node "labels").orElse (.object [])).has (.text masterLabel) >>= _ = _
  rw [hhas, hhas]
  cases Entries.find? masterLabel (metaOf node "labels").fields <;>
    cases Entries.find? excludeLabel (metaOf node "labels").fields <;> rfl

/-- The instance of a node is read off its provider's identifier, without which the node is not of use yet. -/
theorem instanceId_eq (h : IsNode node) :
    providerOf node ≠ "" ∧ instanceId node = .ok (Text.afterLast '/' (providerOf node)) ∨
      providerOf node = "" ∧ ∃ key, instanceId node = .error (.notFound key) := by
  have hid := h.providerId
  have hholds := holds_textIn (v := Fields.get node.fields "spec") hid
  unfold instanceId
  rw [h.providerId_eq]
  by_cases hnone : providerOf node = ""
  · refine .inr ⟨hnone, ?_⟩
    have hfails : (Fields.get (Fields.get node.fields "spec").fields "providerID").holds = false := by
      rw [Bool.eq_false_iff]
      exact fun hh => hholds.1 hh hnone
    have hname : metaField node "name" = .ok (metaOf node "name") := metaField_of_ne_null h.named.name.ne_null
    simp only [hfails, hname, bind, Except.bind]
    exact ⟨_, rfl⟩
  · refine .inl ⟨hnone, ?_⟩
    have hthere := hholds.2 hnone
    obtain hnull | ⟨s, hs⟩ := hid
    · rw [hnull] at hthere
      cases hthere
    · have hprovider : providerOf node = s := by rw [providerOf, textIn, hs]
      rw [hprovider]
      rw [hs] at hthere ⊢
      simp only [bind, Except.bind, hthere]
      rfl

theorem eligibleNodes_eq (h : ∀ node ∈ store.nodes.values, IsNode node) :
    store.eligibleNodes = .ok (receivers store) :=
  filterM_ok fun node hnode => isEligible_eq (h node hnode)

theorem isNode_of_receivers (h : ∀ node ∈ store.nodes.values, IsNode node) :
    ∀ node ∈ receivers store, IsNode node :=
  fun node hnode => h node (List.mem_filter.1 hnode).1

theorem mapM_instanceId {nodes : List Value} (h : ∀ node ∈ nodes, IsNode node) :
    (∀ node ∈ nodes, providerOf node ≠ "") ∧
        nodes.mapM instanceId = .ok (nodes.map fun node => Text.afterLast '/' (providerOf node)) ∨
      (∃ node ∈ nodes, providerOf node = "") ∧ ∃ key, nodes.mapM instanceId = .error (.notFound key) := by
  induction nodes with
  | nil => exact .inl ⟨by simp, rfl⟩
  | cons node nodes ih =>
    obtain ⟨hnode, hrest⟩ := List.forall_mem_cons.1 h
    rw [List.mapM_cons]
    obtain ⟨hid, heq⟩ | ⟨hid, key, heq⟩ := instanceId_eq hnode
    · obtain ⟨hids, hrows⟩ | ⟨⟨other, hother, hnone⟩, key, hfails⟩ := ih hrest
      · refine .inl ⟨List.forall_mem_cons.2 ⟨hid, hids⟩, ?_⟩
        rw [heq, hrows]
        rfl
      · refine .inr ⟨⟨other, List.mem_cons_of_mem _ hother, hnone⟩, key, ?_⟩
        rw [heq, hfails]
        rfl
    · refine .inr ⟨⟨node, List.mem_cons_self, hid⟩, key, ?_⟩
      rw [heq]
      rfl

theorem instanceIds_eq (h : ∀ node ∈ store.nodes.values, IsNode node) :
    store.instanceIds = (receivers store).mapM instanceId := by
  unfold Store.instanceIds
  rw [eligibleNodes_eq h]
  rfl

/-- There is more than one key left just if two of the keys differ. -/
theorem one_lt_length_eraseDups {ks : List Key} :
    1 < ks.eraseDups.length ↔ ∃ a ∈ ks, ∃ b ∈ ks, (a == b) = false := by
  constructor
  · intro hlen
    have hpair := List.pairwise_iff_getElem.1 (pairwise_eraseDups ks) 0 1 (by omega) hlen one_pos
    exact ⟨_, mem_of_mem_eraseDups (List.getElem_mem hlen), _,
      mem_of_mem_eraseDups (List.getElem_mem _), hpair⟩
  · rintro ⟨a, ha, b, hb, hab⟩
    have hkept : ∀ k ∈ ks, ∃ k' ∈ ks.eraseDups, (k == k') = true := fun k hk => by
      have hcontains := contains_eraseDups ks k
      rw [List.contains_iff_exists_mem_beq.2 ⟨k, hk, BEq.rfl⟩] at hcontains
      exact List.contains_iff_exists_mem_beq.1 hcontains
    obtain ⟨a', ha', haa⟩ := hkept a ha
    obtain ⟨b', hb', hbb⟩ := hkept b hb
    by_contra hlen
    obtain ⟨i, hi, rfl⟩ := List.mem_iff_getElem.1 ha'
    obtain ⟨j, hj, rfl⟩ := List.mem_iff_getElem.1 hb'
    obtain rfl : i = j := by omega
    rw [BEq.trans haa (BEq.symm hbb)] at hab
    cases hab

/-- The node port of a port as a key. -/
def nodePortKey (port : Value) : Key :=
  match Fields.get port.fields "nodePort" with
  | .number n => .number n
  | _ => .null

theorem IsServicePort.key_nodePort (h : IsServicePort port) :
    (Fields.get port.fields "nodePort").key = .ok (nodePortKey port) := by
  unfold nodePortKey
  obtain hn | ⟨n, hn⟩ := h.nodePort <;> rw [hn] <;> rfl

theorem beq_nodePortKey {p q : Value} (hp : IsServicePort p) (hq : IsServicePort q) :
    (nodePortKey p == nodePortKey q) = true ↔
      Fields.get p.fields "nodePort" = Fields.get q.fields "nodePort" := by
  unfold nodePortKey
  obtain hp | ⟨m, hp⟩ := hp.nodePort <;> obtain hq | ⟨n, hq⟩ :=
    hq.nodePort <;> rw [hp, hq, Key.beq_iff_meaning] <;>
    simp [Key.meaning, Number.reduced]

theorem IsServicePort.nodePort_eq (h : IsServicePort port) :
    numberIn port "nodePort" = 0 ∧ (Fields.get port.fields "nodePort").holds = false ∨
      numberIn port "nodePort" ≠ 0 ∧ (Fields.get port.fields "nodePort").holds = true ∧
        Fields.get port.fields "nodePort" = .int (numberIn port "nodePort") := by
  unfold numberIn
  obtain hn | ⟨n, hn⟩ := h.nodePort
  · rw [hn]
    exact .inl ⟨rfl, rfl⟩
  · rw [hn]
    by_cases hzero : n = 0
    · subst hzero
      exact .inl ⟨rfl, rfl⟩
    · exact .inr ⟨hzero, by simpa [Value.holds, Number.isZero, Number.same, Number.alike, Number.reduced,
        Number.isNumber] using hzero, rfl⟩

/-- There is more than one node port just if those with the number that a backend names differ. -/
theorem one_lt_nodePortsOf (hports : ports service = .ok ps) (hps : ∀ p ∈ ps, IsServicePort p) :
    ∃ ks, nodePortsOf service b.port = .ok ks ∧
      (b.protocol = .text "TCP_UDP" → (1 < ks.length ↔ Differ ps b)) := by
  classical
  have hrow : ∀ p ∈ ps, nodePortOf? b.port (id p) =
      .ok (if Names b p then some (nodePortKey p) else none) := by
    intro p hp
    have hnames : b.port.same (.text (Fields.get p.fields "port").shown) = decide (Names b p) := by
      rw [(hps p hp).shown_number, Bool.eq_iff_iff, Value.same_text_iff, decide_eq_true_iff, Names]
    unfold nodePortOf?
    rw [id, (hps p hp).get, (hps p hp).get]
    show (if b.port.same (.text (Fields.get p.fields "port").shown) = true then _ else _) = _
    by_cases h : Names b p
    · rw [if_pos h, if_pos (hnames.trans (decide_eq_true h))]
      show ((Fields.get p.fields "nodePort").key >>= _) = _
      rw [(hps p hp).key_nodePort]
      rfl
    · rw [if_neg h, if_neg (by rw [hnames]; simpa using h)]
      rfl
  have hall := filterMapM_map_ok hrow
  rw [List.map_id] at hall
  refine ⟨_, bind_eq_ok_iff.2 ⟨_, hports, bind_eq_ok_iff.2 ⟨_, hall, rfl⟩⟩, fun hboth => ?_⟩
  have hmem : ∀ k, k ∈ ps.filterMap (fun p => if Names b p then some (nodePortKey p) else none) ↔
      ∃ p ∈ ps, Names b p ∧ nodePortKey p = k := by
    simp
  rw [one_lt_length_eraseDups]
  constructor
  · rintro ⟨_, hk, _, hk', hne⟩
    obtain ⟨p, hp, hpn, rfl⟩ := (hmem _).1 hk
    obtain ⟨q, hq, hqn, rfl⟩ := (hmem _).1 hk'
    refine ⟨hboth, p, hp, q, hq, hpn, hqn, fun heq => ?_⟩
    rw [(beq_nodePortKey (hps p hp) (hps q hq)).2 heq] at hne
    cases hne
  · rintro ⟨-, p, hp, q, hq, hpn, hqn, hne⟩
    refine ⟨_, (hmem _).2 ⟨p, hp, hpn, rfl⟩, _, (hmem _).2 ⟨q, hq, hqn, rfl⟩, ?_⟩
    rw [Bool.eq_false_iff]
    exact fun heq => hne ((beq_nodePortKey (hps p hp) (hps q hq)).1 heq)

variable (store b) in
theorem instanceTargets_of_no_nodePort (hkey : objectKey service = .ok (.text key)) (hp : IsServicePort port)
    (h : numberIn port "nodePort" = 0) :
    ∃ what, instanceTargets store service b port = .error (.missing what) := by
  obtain ⟨fs, rfl, hitem⟩ := hp.exists_fields
  obtain ⟨-, hfails⟩ | ⟨hne, -⟩ := hp.nodePort_eq
  · unfold instanceTargets
    rw [hp.get, hkey]
    show ∃ what, (if (!(Fields.get fs "nodePort").holds) = true then _ else _) = _
    rw [if_pos (by rw [show (Fields.get fs "nodePort").holds = false from hfails]; rfl)]
    by_cases hname : (Fields.get fs "name").holds = true
    · exact ⟨.nodePort key (Fields.get fs "name").shown,
        by simp [hname, bind, Except.bind, pure, Except.pure, throw, throwThe, MonadExceptOf.throw]⟩
    · exact ⟨.nodePort key (Value.int (numberIn (.object fs) "port")).shown,
        by simp [hname, hitem, bind, Except.bind, throw, throwThe, MonadExceptOf.throw]⟩
  · exact absurd h hne

variable (store b) in
/-- With a node port, it depends on the other node ports whether nodes are looked for. -/
theorem instanceTargets_of_nodePort (hkey : objectKey service = .ok (.text key))
    (hports : ports service = .ok ps) (hps : ∀ p ∈ ps, IsServicePort p) (hp : IsServicePort port)
    (h : numberIn port "nodePort" ≠ 0) :
    Differ ps b ∧ (∃ fault, instanceTargets store service b port = .error (.configuration fault)) ∨
      ¬ Differ ps b ∧ instanceTargets store service b port = (do
        return (← store.instanceIds).map fun id => Place.target (id, numberIn port "nodePort")) := by
  obtain ⟨hzero, -⟩ | ⟨-, hholds, hint⟩ := hp.nodePort_eq
  · exact absurd hzero h
  obtain ⟨ks, hks, hiff⟩ := one_lt_nodePortsOf (b := b) hports hps
  have hmap : ∀ ids : List String, ids.mapM (fun id => do
      return (⟨.text id, .int (← (Fields.get port.fields "nodePort").integer)⟩ : Target)) =
      .ok (ids.map fun id => Place.target (id, numberIn port "nodePort")) := fun ids => by
    rw [hint]
    refine mapM_eq_ok_iff.2 (List.forall₂_map_right_iff.2 (List.forall₂_same.2 fun id _ => rfl))
  have hall : (do (← store.instanceIds).mapM fun id => do
      return (⟨.text id, .int (← (Fields.get port.fields "nodePort").integer)⟩ : Target)) =
      (do return (← store.instanceIds).map fun id => Place.target (id, numberIn port "nodePort") :
        Except Error (List Target)) := by
    cases store.instanceIds with
    | error e => rfl
    | ok ids => exact hmap ids
  unfold instanceTargets
  rw [hp.get, hkey, ← hall]
  simp only [bind, Except.bind, hholds, Bool.not_true, Bool.false_eq_true, if_false, hks]
  by_cases hboth : b.protocol = .text "TCP_UDP"
  · rw [if_pos (by simp [hboth])]
    by_cases hlen : 1 < ks.length
    · exact .inl ⟨(hiff hboth).1 hlen, _, by rw [if_pos hlen]; rfl⟩
    · exact .inr ⟨mt (hiff hboth).2 hlen, by rw [if_neg hlen]⟩
  · rw [if_neg (by simpa using hboth)]
    exact .inr ⟨fun hd => hboth hd.1, rfl⟩

/-- How the search for instances ends. -/
theorem onInstances_instanceTargets (hkey : objectKey service = .ok (.text key))
    (hports : ports service = .ok ps) (hps : ∀ p ∈ ps, IsServicePort p) (hport : port ∈ ps)
    (hnodes : ∀ node ∈ store.nodes.values, IsNode node) :
    OnInstances store ps b port (instanceTargets store service b port >>= Target.sorted) := by
  by_cases hzero : numberIn port "nodePort" = 0
  · obtain ⟨what, hfails⟩ := instanceTargets_of_no_nodePort store b hkey (hps port hport) hzero
    rw [hfails]
    exact ⟨fun h => absurd hzero h, iff_of_true ⟨_, rfl, trivial⟩ (.inl hzero),
      iff_of_false nofun fun h => h.1 hzero⟩
  obtain ⟨hd, fault, hfails⟩ | ⟨hd, heq⟩ :=
    instanceTargets_of_nodePort store b hkey hports hps (hps port hport) hzero
  · rw [hfails]
    refine ⟨fun _ h => absurd hd h, iff_of_false ?_ ?_, iff_of_true ⟨_, rfl⟩ ⟨hzero, hd⟩⟩
    · rintro ⟨_, he, hm⟩
      cases he
      exact hm
    · rintro (h | ⟨h, -⟩)
      · exact hzero h
      · exact h hd
  rw [heq, instanceIds_eq hnodes]
  obtain ⟨hall, hids⟩ | ⟨hnone, key, hids⟩ := mapM_instanceId (isNode_of_receivers hnodes)
  · obtain ⟨ts, hts, hordered⟩ := exists_ordered ((receivers store).map (placeOn port))
    rw [List.map_map] at hts
    rw [hids]
    show OnInstances store ps b port (Target.sorted (List.map _ (List.map _ (receivers store))))
    rw [List.map_map]
    change OnInstances store ps b port (Target.sorted ((receivers store).map (Place.target ∘ placeOn port)))
    rw [hts]
    refine ⟨fun _ _ _ => ⟨ts, rfl, hordered⟩, iff_of_false nofun ?_, iff_of_false nofun fun h => hd h.2⟩
    rintro (h | ⟨-, node, hnode, h⟩)
    · exact hzero h
    · exact hall node hnode h
  · rw [hids]
    obtain ⟨node, hnode, hnone⟩ := hnone
    refine ⟨fun _ _ h => absurd hnone (h node hnode),
      iff_of_true ⟨_, rfl, trivial⟩ (.inr ⟨hd, node, hnode, hnone⟩), ?_⟩
    exact iff_of_false nofun fun h => hd h.2

/-! ## Addresses -/

theorem firstThat_ok {p : Value → Except Error Bool} {q : Value → Bool} (h : ∀ v ∈ vs, p v = .ok (q v)) :
    firstThat p vs = .ok (vs.find? q) := by
  induction vs with
  | nil => rfl
  | cons v vs ih =>
    obtain ⟨hv, hvs⟩ := List.forall_mem_cons.1 h
    rw [firstThat, hv, List.find?_cons]
    cases q v with
    | true => rfl
    | false => exact ih hvs

theorem isPort_of_matched? (hs : IsReadySubset subset) (h : matched? port subset = some v) : IsPort v := by
  obtain ⟨-, -, hports⟩ := items_of_isListOf hs.ports
  unfold matched? at h
  split at h
  · split at h
    · exact hports v (List.mem_of_head? h)
    · cases h
  · exact hports v (List.mem_of_find?_eq_some h)

theorem subsetPort_eq (hp : IsPort port) (hs : IsReadySubset subset) :
    subsetPort port subset = .ok ((matched? port subset).getD .null) := by
  obtain ⟨fs, rfl⟩ := hs.isObject
  obtain ⟨-, hlist, hports⟩ := items_of_isListOf hs.ports
  have hmatch : subsetPort port (.object fs) = matchPort (.list (itemsIn (.object fs) "ports")) port := by
    rw [← hlist]
    rfl
  rw [hmatch, matchPort, hp.get]
  show (if (Fields.get port.fields "name").holds = true then _ else _) = _
  unfold matched?
  by_cases hname : textIn port "name" = ""
  · rw [if_neg (fun h => (holds_textIn hp.name).1 h hname), if_pos hname]
    match itemsIn (.object fs) "ports" with
    | [] => rfl
    | [p] => rfl
    | p :: q :: ps => rfl
  · rw [if_pos ((holds_textIn hp.name).2 hname), if_neg hname]
    obtain hnull | ⟨s, hs⟩ := hp.name
    · exact absurd (by rw [textIn, hnull]) hname
    have htext : textIn port "name" = s := by rw [textIn, hs]
    rw [htext] at hname ⊢
    rw [hs, firstThat_ok fun p hp => ?_]
    · rfl
    · rw [(hports p hp).get]
      exact congrArg Except.ok (textIn_eq (hports p hp).name hname)

theorem subsetTargets_placesIn (hp : IsPort port) (hs : IsReadySubset subset) :
    subsetTargets port subset = .ok ((placesIn port subset).map Place.target) := by
  obtain ⟨haddresses, -, hips⟩ := items_of_isListOf hs.addresses
  unfold subsetTargets placesIn matching?
  rw [subsetPort_eq hp hs]
  cases hmatched : matched? port subset with
  | none => rfl
  | some p =>
    have hport := isPort_of_matched? hs hmatched
    obtain ⟨fs, rfl⟩ := hs.isObject
    obtain ⟨gs, rfl, -⟩ := hport.exists_fields
    show ((Fields.get fs "addresses").elementsIfAny >>= _) = _
    rw [show (Fields.get fs "addresses").elementsIfAny = _ from haddresses]
    refine mapM_eq_ok_iff.2 (List.forall₂_map_right_iff.2 ?_)
    refine List.forall₂_map_right_iff.2 (List.forall₂_same.2 fun a ha => ?_)
    rw [get_of_isAddress (hips a ha)]
    exact bind_eq_ok_iff.2 ⟨_, rfl, bind_eq_ok_iff.2 ⟨_, hport.portNumber, rfl⟩⟩

theorem addressTargets_bind : addressTargets store service port =
    endpointSubsets store service >>= fun subsets =>
      do return (← subsets.mapM (subsetTargets port)).flatten := by
  simp only [endpointSubsets, addressTargets, bind_assoc]

theorem addressTargets_placesIn {subsets : List Value} (hp : IsPort port)
    (hsubsets : endpointSubsets store service = .ok subsets)
    (hall : ∀ subset ∈ subsets, IsReadySubset subset) :
    addressTargets store service port = .ok ((subsets.flatMap (placesIn port)).map Place.target) := by
  have hrows : subsets.mapM (subsetTargets port) =
      .ok (subsets.map fun subset => (placesIn port subset).map Place.target) :=
    mapM_eq_ok_iff.2 (List.forall₂_map_right_iff.2
      (List.forall₂_same.2 fun subset hs => subsetTargets_placesIn hp (hall subset hs)))
  rw [addressTargets_bind, hsubsets]
  show (subsets.mapM (subsetTargets port) >>= _) = _
  rw [hrows, List.map_flatMap, List.flatMap_def]
  rfl

theorem endpointSubsets_eq (hkey : objectKey service = .ok (.text key)) :
    endpointSubsets store service =
      (store.endpoints.get? (.text key)).elim (.error (.notFound (.text key))) fun v =>
        v.get "subsets" >>= Value.elementsIfAny := by
  unfold endpointSubsets
  rw [hkey]
  show (store.find .endpoints (.text key) >>= _) = _
  rw [Store.find_text]
  show ((store.endpoints.get? (.text key)).elim _ _ >>= _) = _
  cases store.endpoints.get? (.text key) <;> rfl

theorem IsReady.elements (h : IsReady endpoints) :
    (endpoints.get "subsets" >>= Value.elementsIfAny) = .ok (itemsIn endpoints "subsets") := by
  obtain ⟨fs, rfl⟩ := h.isObject
  exact (items_of_isListOf h.subsets).1

/-- The port of a health check is looked for in the subsets that have the targets. -/
theorem endpointPort?_matchingNumbers (hp : IsPort port) (h : IsReady endpoints) :
    endpointPort? endpoints port = .ok (matchingNumbers port endpoints).head? := by
  obtain ⟨-, -, hall⟩ := items_of_isListOf h.subsets
  have hgo : ∀ subsets : List Value, (∀ subset ∈ subsets, IsReadySubset subset) →
      endpointPort?.go port subsets = .ok (subsets.filterMap (matching? port)).head? := by
    intro subsets hsubsets
    induction subsets with
    | nil => rfl
    | cons subset subsets ih =>
      obtain ⟨hs, hrest⟩ := List.forall_mem_cons.1 hsubsets
      rw [endpointPort?.go, subsetPort_eq hp hs, List.filterMap_cons, matching?]
      cases hmatched : matched? port subset with
      | none => exact ih hrest
      | some p =>
        have hport := isPort_of_matched? hs hmatched
        have hnumber := hport.portNumber
        obtain ⟨gs, rfl, -⟩ := hport.exists_fields
        show (portNumber (.object gs) >>= _) = _
        rw [hnumber]
        rfl
  have helements := h.elements
  obtain ⟨fs, rfl⟩ := h.isObject
  have hsame : endpointPort? (.object fs) port =
      (((Value.object fs).orElse (.object [])).get "subsets" >>= Value.elementsIfAny) >>=
        endpointPort?.go port := by
    rw [bind_assoc]
    rfl
  have hobject : (Value.object fs).orElse (.object []) = .object fs := by cases fs <;> rfl
  rw [hsame, hobject, helements]
  exact hgo _ hall

/-- The number of every place is that of a port that belongs to the port of the Service. -/
theorem number_of_place {p : Place} (hmem : p ∈ (itemsIn endpoints "subsets").flatMap (placesIn port)) :
    p.2 ∈ matchingNumbers port endpoints := by
  obtain ⟨subset, hsubset, hmem⟩ := List.mem_flatMap.1 hmem
  unfold placesIn at hmem
  cases hmatching : matching? port subset with
  | none => simp [hmatching] at hmem
  | some n =>
    rw [hmatching] at hmem
    obtain ⟨a, -, rfl⟩ := List.mem_map.1 hmem
    exact List.mem_filterMap.2 ⟨subset, hsubset, hmatching⟩

/-- How the search for addresses ends. -/
theorem onAddresses_addressTargets (hkey : objectKey service = .ok (.text key)) (hp : IsPort port)
    (hready : ∀ endpoints, store.endpoints.get? (.text key) = some endpoints → IsReady endpoints) :
    OnAddresses (store.endpoints.get? (.text key)) port
      (addressTargets store service port >>= Target.sorted) := by
  have hsubsets : endpointSubsets store service = _ := endpointSubsets_eq hkey
  cases hstored : store.endpoints.get? (.text key) with
  | none =>
    rw [hstored] at hsubsets
    rw [addressTargets_bind, hsubsets]
    exact ⟨nofun, iff_of_true ⟨_, rfl⟩ rfl, nofun⟩
  | some endpoints =>
    have hr := hready endpoints hstored
    obtain ⟨-, -, hall⟩ := items_of_isListOf hr.subsets
    rw [hstored] at hsubsets
    obtain ⟨ts, hts, hordered⟩ := exists_ordered ((itemsIn endpoints "subsets").flatMap (placesIn port))
    rw [addressTargets_placesIn hp (hsubsets.trans hr.elements) hall]
    change OnAddresses _ _ (Target.sorted _)
    rw [hts]
    refine ⟨fun _ h => ⟨ts, rfl, Option.some.inj h ▸ hordered⟩, iff_of_false nofun nofun, ?_⟩
    rintro _ _ ⟨⟩ ⟨⟩ hne
    rw [endpointPort?_matchingNumbers hp hr]
    have hnumber : ∀ t ∈ ts, ∃ n ∈ matchingNumbers port endpoints, t.port = .int n := by
      intro t ht
      obtain ⟨p, hmem, rfl⟩ := (hordered.mem_iff t).1 ht
      exact ⟨p.2, number_of_place hmem, rfl⟩
    obtain ⟨t, ht⟩ := List.exists_mem_of_ne_nil ts hne
    obtain ⟨n, hn, -⟩ := hnumber t ht
    cases hnumbers : matchingNumbers port endpoints with
    | nil =>
      rw [hnumbers] at hn
      cases hn
    | cons m ms =>
      rw [hnumbers] at hnumber
      refine ⟨m, rfl, fun hsame t ht => ?_⟩
      obtain ⟨n, hn, htn⟩ := hnumber t ht
      rw [htn, hsame n hn m List.mem_cons_self]

/-! ## Both -/

/-- Two stores with the same nodes, and the same subsets of the Endpoints of a Service, in whatever order. -/
structure SameUpToOrder (service : Value) (store store' : Store) : Prop where
  nodes : store.nodes.values.Perm store'.nodes.values
  subsets : Paired List.Perm (endpointSubsets store service) (endpointSubsets store' service)

theorem OnInstances.of_ok (h : OnInstances store ps b port (.ok ts)) :
    numberIn port "nodePort" ≠ 0 ∧ ¬ Differ ps b ∧
    (∀ node ∈ receivers store, providerOf node ≠ "") ∧ Ordered ts ((receivers store).map (placeOn port)) := by
  have hmissing := mt h.missing_iff.2 nofun
  have hconfiguration := mt h.configuration_iff.2 nofun
  have hnode : numberIn port "nodePort" ≠ 0 := fun hzero => hmissing (.inl hzero)
  have hd : ¬ Differ ps b := fun hd => hconfiguration ⟨hnode, hd⟩
  have hall : ∀ node ∈ receivers store, providerOf node ≠ "" :=
    fun node hn hnone => hmissing (.inr ⟨hd, node, hn, hnone⟩)
  obtain ⟨_, hts, hordered⟩ := h.returns hnode hd hall
  cases hts
  exact ⟨hnode, hd, hall, hordered⟩

theorem OnInstances.eq_of_perm {result : Except Error (List Target)}
    (h : OnInstances store ps b port (.ok ts)) (h' : OnInstances store' ps b port result)
    (hperm : store.nodes.values.Perm store'.nodes.values) : result = .ok ts := by
  obtain ⟨hnode, hd, hall, hordered⟩ := h.of_ok
  have hreceivers : (receivers store).Perm (receivers store') := hperm.filter _
  obtain ⟨us, hus, hordered'⟩ := h'.returns hnode hd fun node hn => hall node (hreceivers.mem_iff.2 hn)
  rw [hus, hordered'.eq hordered (hreceivers.symm.map _)]

theorem addressTargets_eq_of_perm {subsets : List Value} (hp : IsPort port)
    (hsubsets : endpointSubsets store service = .ok subsets) (hall : ∀ subset ∈ subsets, IsReadySubset subset)
    (hperm : Paired List.Perm (endpointSubsets store service) (endpointSubsets store' service)) :
    (addressTargets store' service port >>= Target.sorted) =
      (addressTargets store service port >>= Target.sorted) := by
  have hpaired := hperm
  rw [hsubsets] at hpaired
  obtain ⟨subsets', hsubsets', hsame⟩ := hpaired.of_ok
  rw [addressTargets_placesIn hp hsubsets hall,
    addressTargets_placesIn hp hsubsets' fun subset hs => hall subset (hsame.mem_iff.2 hs)]
  obtain ⟨ts, hts, hordered⟩ := exists_ordered (subsets.flatMap (placesIn port))
  obtain ⟨us, hus, hordered'⟩ := exists_ordered (subsets'.flatMap (placesIn port))
  show Target.sorted _ = Target.sorted _
  rw [hts, hus, hordered.eq hordered' (hsame.flatMap_right _)]

theorem resolveTargets_of_findPort (store : Store) (hfind : findPort service b.port = .ok port) :
    resolveTargets store service b (.text "instance") =
      instanceTargets store service b port >>= Target.sorted ∧
      resolveTargets store service b (.text "ip") = addressTargets store service port >>= Target.sorted := by
  unfold resolveTargets
  rw [hfind]
  exact ⟨rfl, rfl⟩

/-- The targets of a backend are those on all eligible nodes, or those on all ready addresses of the
subsets that have its port. -/
theorem resolveTargets_spec (hkey : objectKey service = .ok (.text key)) (hports : ports service = .ok ps)
    (hps : ∀ p ∈ ps, IsServicePort p) (hnodes : ∀ node ∈ store.nodes.values, IsNode node)
    (hready : ∀ endpoints, store.endpoints.get? (.text key) = some endpoints → IsReady endpoints)
    (hfind : findPort service b.port = .ok port) :
    OnInstances store ps b port (resolveTargets store service b (.text "instance")) ∧
      OnAddresses (store.endpoints.get? (.text key)) port (resolveTargets store service b (.text "ip")) ∧
      ∀ store', SameUpToOrder service store store' →
        ∀ type, type = .text "instance" ∨ type = .text "ip" → ∀ ts,
        resolveTargets store service b type = .ok ts → resolveTargets store' service b type = .ok ts := by
  have hmem : port ∈ ps := by
    obtain ⟨_, hall, h⟩ := bind_eq_ok_iff.1 hfind
    rw [hports] at hall
    cases hall
    obtain ⟨found, hfound, h⟩ := bind_eq_ok_iff.1 h
    cases found with
    | none =>
      obtain ⟨_, -, h⟩ := bind_eq_ok_iff.1 h
      cases h
    | some p =>
      cases h
      obtain ⟨front, rest, rfl, -⟩ := firstThat_eq_some hfound
      exact List.mem_append_right _ List.mem_cons_self
  have hinstances := onInstances_instanceTargets (b := b) hkey hports hps hmem hnodes
  obtain ⟨hinstance, hip⟩ := resolveTargets_of_findPort store hfind
  rw [hinstance, hip]
  refine ⟨hinstances, onAddresses_addressTargets hkey (hps port hmem).toIsPort hready, ?_⟩
  rintro store' ⟨hsame, hsubsets⟩ type htype ts hts
  obtain ⟨hinstance', hip'⟩ := resolveTargets_of_findPort store' hfind
  rcases htype with rfl | rfl
  · rw [hinstance] at hts
    rw [hts] at hinstances
    rw [hinstance']
    exact hinstances.eq_of_perm
      (onInstances_instanceTargets hkey hports hps hmem fun node hn => hnodes node (hsame.mem_iff.2 hn)) hsame
  · rw [hip] at hts
    rw [hip', ← hts]
    obtain ⟨found, hfound, -⟩ := bind_eq_ok_iff.1 hts
    rw [addressTargets_bind] at hfound
    obtain ⟨subsets, hs, -⟩ := bind_eq_ok_iff.1 hfound
    refine addressTargets_eq_of_perm (hps port hmem).toIsPort hs ?_ hsubsets
    have hstored := hs
    rw [endpointSubsets_eq hkey] at hstored
    cases hget : store.endpoints.get? (.text key) with
    | none =>
      rw [hget] at hstored
      cases hstored
    | some endpoints =>
      have hr := hready endpoints hget
      rw [hget, Option.elim_some, hr.elements] at hstored
      cases hstored
      exact (items_of_isListOf hr.subsets).2.2

/-- A node of an instance. -/
def nodeOf (name id : String) : Value :=
  .object [("metadata", .object [("name", .text name)]),
    ("spec", .object [("providerID", .text ("aws:///zone/" ++ id))])]

/-- Endpoints with one ready address and one that is not. -/
def oneReady : Value :=
  .object [("subsets", .list [.object [
    ("ports", .list [.object [("name", .text "http"), ("port", .int 8080)]]),
    ("addresses", .list [.object [("ip", .text "10.0.0.1")]]),
    ("notReadyAddresses", .list [.object [("ip", .text "10.0.0.2")]])]])]

/-- A store of two nodes and these Endpoints. -/
def twoNodes : Store where
  endpoints := .ofList [(.text "default/web", oneReady)]
  nodes := .ofList [(.text "b", nodeOf "b" "i-2"), (.text "a", nodeOf "a" "i-1")]

theorem isNode_twoNodes : ∀ node ∈ twoNodes.nodes.values, IsNode node := by
  have hnode : ∀ name id : String, '/' ∉ name.toList → IsNode (nodeOf name id) := fun name id h =>
    ⟨⟨⟨name, rfl, h⟩, .inl rfl⟩, .inl rfl, .inr ⟨_, rfl⟩, .inr ⟨_, rfl⟩⟩
  show ∀ node ∈ [nodeOf "b" "i-2", nodeOf "a" "i-1"], IsNode node
  simp only [List.mem_cons, List.not_mem_nil, or_false, forall_eq_or_imp, forall_eq]
  exact ⟨hnode "b" "i-2" (by decide), hnode "a" "i-1" (by decide)⟩

theorem isServicePort_twoPorts :
    ∀ p ∈ [portOf "http" 80 30080, portOf "https" 443 30443], IsServicePort p := by
  have hport : ∀ name number nodePort, IsServicePort
      (portOf name number nodePort) := fun name number nodePort =>
    ⟨⟨⟨number, rfl⟩, .inr ⟨name, rfl⟩⟩, .inr ⟨nodePort, rfl⟩⟩
  simp only [List.mem_cons, List.not_mem_nil, or_false, forall_eq_or_imp, forall_eq]
  exact ⟨hport _ _ _, hport _ _ _⟩

theorem isReady_oneReady : IsReady oneReady := by
  refine ⟨⟨_, rfl⟩, .inr ⟨_, rfl, ?_⟩⟩
  simp only [List.mem_cons, List.not_mem_nil, or_false, forall_eq]
  refine ⟨⟨_, rfl⟩, .inr ⟨_, rfl, ?_⟩, .inr ⟨_, rfl, ?_⟩⟩
  · simp only [List.mem_cons, List.not_mem_nil, or_false, forall_eq]
    exact ⟨⟨8080, rfl⟩, .inr ⟨"http", rfl⟩⟩
  · simp only [List.mem_cons, List.not_mem_nil, or_false, forall_eq]
    exact ⟨"10.0.0.1", rfl⟩

theorem targets_twoNodes :
    (∃ ts, resolveTargets twoNodes (twoPorts "http") ⟨.text "web", .text "80", .text "TCP"⟩
      (.text "instance") = .ok ts ∧
      Ordered ts [("i-2", 30080), ("i-1", 30080)]) ∧
    ∃ ts, resolveTargets twoNodes (twoPorts "http") ⟨.text "web", .text "80", .text "TCP"⟩
      (.text "ip") = .ok ts ∧
      Ordered ts [("10.0.0.1", 8080)] := by
  have hkey : objectKey (twoPorts "http") = .ok (.text "default/web") := rfl
  have hfind : findPort (twoPorts "http") (.text "80") = .ok (portOf "http" 80 30080) := rfl
  have hready : ∀ endpoints, twoNodes.endpoints.get? (.text "default/web") = some endpoints →
      IsReady endpoints := by
    rintro _ ⟨⟩
    exact isReady_oneReady
  obtain ⟨hinstance, hip, -⟩ := resolveTargets_spec (b := ⟨.text "web", .text "80", .text "TCP"⟩) hkey rfl
    isServicePort_twoPorts isNode_twoNodes hready hfind
  refine ⟨hinstance.returns (by decide) (fun h => absurd h.1 (by simp)) ?_, hip.returns oneReady rfl⟩
  show ∀ node ∈ [nodeOf "b" "i-2", nodeOf "a" "i-1"], providerOf node ≠ ""
  simp only [List.mem_cons, List.not_mem_nil, or_false, forall_eq_or_imp, forall_eq]
  exact ⟨by decide, by decide⟩

end

end Routing

end Balancer
