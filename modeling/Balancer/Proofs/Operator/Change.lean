import Balancer.Proofs.Cluster.Changes
import Balancer.Proofs.Cluster.Same
import Balancer.Proofs.Cluster.Whitelist

/-!
# What an event changes and whom it concerns

* `Change` : an event; `write` and `keysOf` are the two halves of its handler
  (`observe_eq`, `observeConfigMap_eq`);
* `classed i k` : the Service of a key, if it is of the class; `Aspect` : what else a reconcile of it reads;
* `Finds` : a handler will find its keys, whatever happens meanwhile; `Announces`, `Concerns` : a key is among
  them, or is if its Service is of the class by then;
* `write_effect` : a handler first changes nothing that a reconcile of a key reads, or it will find the key.
-/

namespace Balancer

set_option autoImplicit false

open Cluster Value Routing Trigger

/-! ## What is read for a key -/

/-- Whether a Service is of a class. -/
def isClassed (serviceClass service : Value) : Bool :=
  match isOfClass serviceClass service with
  | .ok b => b
  | .error _ => false

/-- The Service of a key, if it is of the class. -/
def Inputs.classed (i : Inputs) (k : String) : Option Value :=
  (i.store.services.get? (.text k)).filter (isClassed i.config.serviceClass)

/-- What is read to reconcile a Service beside the Service. -/
inductive Aspect where
  | endpoints
  | nodes
  | config

/-- An aspect of the Service of a key is the same where it is read. -/
def Aspect.Same (i j : Inputs) (k : String) : Aspect → Prop
  | .endpoints =>
    Option.Rel SameEndpoints (i.store.endpoints.get? (.text k)) (j.store.endpoints.get? (.text k))
  | .nodes => i.store.instanceIds = j.store.instanceIds
  | .config => i.config = j.config

section

variable {ordered : Prop} {i j : Inputs} {o o' : Operator} {s : Store} {c : Config} {k : String} {v w : Value}

theorem Aspect.Same.trans {l : Inputs} {a : Aspect} (h : a.Same i j k)
    (h' : a.Same j l k) : a.Same i l k := by
  cases a with
  | endpoints => exact optionRel_trans (R := SameEndpoints) (fun _ _ _ => SameEndpoints.trans) h h'
  | nodes => exact Eq.trans h h'
  | config => exact Eq.trans h h'

theorem isClassed_eq (h : SameService ordered v w) (serviceClass : Value) :
    isClassed serviceClass v = isClassed serviceClass w := by
  unfold isClassed
  rw [h.isOfClass_eq]

theorem Cluster.IsService.isOfClass_ok (h : IsService ordered v) (serviceClass : Value) :
    Cluster.isOfClass serviceClass v = .ok (isClassed serviceClass v) := by
  obtain ⟨b, hb⟩ := h.isOfClass serviceClass
  rw [isClassed, hb]

/-- The keys of all Services of a class can be found. -/
theorem qualifyingKeys_ok (hs : s.WellFormed ordered) (serviceClass : Value) :
    ∃ keys, qualifyingKeys serviceClass s = .ok keys ∧
    (∀ v ∈ keys, ∃ k : String, v = .text k) ∧
      ∀ k : String, ((s.services.get? (.text k)).filter (isClassed serviceClass)).isSome →
        .text k ∈ keys := by
  have hservice : ∀ v ∈ s.services.values, IsService ordered v ∧
      ∃ k : String, objectKey v = .ok (.text k) := by
    intro v hv
    obtain ⟨k, hk⟩ := Table.mem_values_iff.1 hv
    obtain ⟨key, rfl, hkey⟩ := hs.objectKey .service nofun hk
    exact ⟨hs.shaped .service nofun hk, key, hkey⟩
  have hfilter : s.services.values.filterM (isOfClass serviceClass) =
      .ok (s.services.values.filter (isClassed serviceClass)) :=
    filterM_ok fun v hv => (hservice v hv).1.isOfClass_ok serviceClass
  obtain ⟨found, hfound⟩ : ∃ found, (s.services.values.filter (isClassed serviceClass)).mapM
      objectKey = .ok found :=
    isOk_mapM fun v hv => by
      obtain ⟨-, k, hk⟩ := hservice v (List.mem_of_mem_filter hv)
      exact ⟨_, hk⟩
  have htexts : ∀ key ∈ found, ∃ k : String, key = .text k := by
    intro key hkey
    obtain ⟨v, hv, hk⟩ := mem_of_mapM hfound key hkey
    obtain ⟨-, k, hk'⟩ := hservice v (List.mem_of_mem_filter hv)
    rw [hk] at hk'
    exact ⟨k, Except.ok.inj hk'⟩
  obtain ⟨keys, hkeys⟩ : ∃ keys, Value.sorted found = .ok keys := by
    refine sortBy_isOk (List.pairwise_of_forall_mem_list fun a ha b hb => ?_)
    obtain ⟨x, rfl⟩ := htexts a ha
    obtain ⟨y, rfl⟩ := htexts b hb
    exact ⟨_, rfl⟩
  refine ⟨keys, bind_eq_ok_iff.2 ⟨_, hfilter, bind_eq_ok_iff.2 ⟨_, hfound, hkeys⟩⟩,
    fun v hv => htexts v ((sortBy_perm hkeys).mem_iff.1 hv), fun k hk => ?_⟩
  obtain ⟨v, hv⟩ := Option.isSome_iff_exists.1 hk
  obtain ⟨hv, hclass⟩ := Option.filter_eq_some_iff.1 hv
  obtain ⟨key, hin, hkey⟩ :=
    exists_of_mapM hfound v (List.mem_filter.2 ⟨Table.mem_values_iff.2 ⟨_, hv⟩, hclass⟩)
  obtain ⟨own, howned, hown⟩ := hs.objectKey .service nofun hv
  cases howned
  rw [hkey] at hown
  cases hown
  exact (sortBy_perm hkeys).mem_iff.2 hin

end

/-! ## Events -/

namespace Operator

/-- An event, on an object that the store holds or on a config map. -/
inductive Change where
  | object (kind : ObjectKind) (type : EventType) (obj : Value)
  | configMap (type : EventType) (obj : Value)

/-- An event on a well-formed object. -/
def Change.IsWellFormed (ordered : Prop) : Change → Prop
  | .object kind _ obj => IsObject ordered kind obj
  | .configMap _ obj => IsConfigMap obj

/-- The first half of a handler: the store is changed, or the configuration. The object that was
replaced is kept in mind. -/
def write (o : Operator) : Change → Except Error (Option Value × Operator)
  | .object kind type obj => do
    let (old, store) ← o.record kind type obj
    return (old, { o with store })
  | .configMap type obj => .ok (none, { o with config := (configMapKeys o.config o.store type obj).1 })

/-- The second half of a handler: the keys of the Services that the event concerns are found. -/
def keysOf (o : Operator) (old : Option Value) : Change → Except Error (List Value)
  | .object kind type obj => o.concernedKeys kind type old obj
  | .configMap type obj => (configMapKeys o.config o.store type obj).2

/-- Nothing but the store, the whitelist and the queue of an operator has changed. -/
structure SameBase (o o' : Operator) : Prop where
  config : ∃ whitelist, o'.config = { o.config with internetFacing := whitelist }
  identity : o'.identity = o.identity

/-- The second half of a handler succeeds, whatever happens meanwhile. -/
def Finds (ordered : Prop) (o : Operator) (old : Option Value) (e : Change) : Prop :=
  ∀ o', SameBase o o' → o'.store.WellFormed ordered →
    ∃ keys, o'.keysOf old e = .ok keys ∧ ∀ v ∈ keys, ∃ k : String, v = .text k

/-- A handler will find a key, whatever happens meanwhile. -/
def Announces (o : Operator) (old : Option Value) (e : Change) (k : String) : Prop :=
  ∀ o', SameBase o o' → ∃ keys, o'.keysOf old e = .ok keys ∧ .text k ∈ keys

/-- A handler will find a key if its Service is of the class by then. -/
def Concerns (ordered : Prop) (o : Operator) (old : Option Value) (e : Change) (k : String) : Prop :=
  ∀ o', SameBase o o' → o'.store.WellFormed ordered → (o'.inputs.classed k).isSome →
    ∃ keys, o'.keysOf old e = .ok keys ∧ .text k ∈ keys

section

variable {ordered : Prop} {o o' o'' : Operator} {c : Config} {k : String} {kind : ObjectKind}
  {type : EventType} {obj v : Value}
    {old : Option Value}
  {e : Change}

theorem SameBase.refl (o : Operator) : SameBase o o := ⟨⟨o.config.internetFacing, rfl⟩, rfl⟩

theorem SameBase.trans (h : SameBase o o') (h' : SameBase o' o'') : SameBase o o'' := by
  obtain ⟨⟨w, hw⟩, hidentity⟩ := h
  obtain ⟨⟨w', hw'⟩, hidentity'⟩ := h'
  exact ⟨⟨w', by rw [hw', hw]⟩, hidentity'.trans hidentity⟩

theorem SameBase.symm (h : SameBase o o') : SameBase o' o := by
  obtain ⟨⟨w, hw⟩, hidentity⟩ := h
  exact ⟨⟨o.config.internetFacing, by rw [hw]⟩, hidentity.symm⟩

theorem SameBase.serviceClass (h : SameBase o o') : o'.config.serviceClass = o.config.serviceClass := by
  obtain ⟨⟨w, hw⟩, -⟩ := h
  rw [hw]

/-! ## The halves of a handler -/

/-- A handler is its halves, and the keys are queued. -/
theorem observe_eq (o : Operator) (kind : ObjectKind) (type : EventType) (obj : Value) :
    o.observe kind type obj =
    match o.write (.object kind type obj) with
    | .error e => (.error e, o)
    | .ok (old, o') => o'.enqueue (o'.keysOf old (.object kind type obj)) := by
  unfold observe write
  dsimp only
  cases o.record kind type obj with
  | error e => rfl
  | ok r => rfl

/-- The whitelist by which an event on a config map replaces the current one, if it does. -/
def replaced? (c : Config) (type : EventType) (obj : Value) : Except Error (Option Whitelist) := do
  if ← (if c.restrictScheme.holds then isWhitelist c obj else .ok false) then
    return some (← whitelistAfter type obj)
  else return none

theorem replaced?_whitelist (c : Config) (type : EventType) (obj whitelist : Value) :
    replaced? { c with internetFacing := whitelist } type obj = replaced? c type obj := rfl

theorem configMapKeys_eq (c : Config) (store : Store) (type : EventType) (obj : Value) :
    configMapKeys c store type obj =
    match replaced? c type obj with
    | .error e => (c, .error e)
    | .ok none => (c, .ok [])
    | .ok (some whitelist) =>
      ({ c with internetFacing := whitelist.toValue }, qualifyingKeys c.serviceClass store) := by
  unfold configMapKeys replaced?
  cases (if c.restrictScheme.holds then isWhitelist c obj else .ok false) with
  | error e => rfl
  | ok b =>
    cases b with
    | false => rfl
    | true =>
      show _ = match (whitelistAfter type obj >>= fun w => .ok (some w) : Except Error
          (Option Whitelist)) with
        | .error e => _ | .ok none => _ | .ok (some w) => _
      cases whitelistAfter type obj <;> rfl

/-- The keys that an event on a config map concerns may be found before or after the whitelist is replaced. -/
theorem configMapKeys_snd (c : Config) (store : Store) (type : EventType) (obj whitelist : Value) :
    (configMapKeys { c with internetFacing := whitelist } store type obj).2 =
      (configMapKeys c store type obj).2 := by
  rw [configMapKeys_eq, configMapKeys_eq, replaced?_whitelist]
  rcases replaced? c type obj with e | (_ | w) <;> rfl

theorem sameBase_configMap (o : Operator) (type : EventType) (obj : Value) :
    SameBase o { o with config := (configMapKeys o.config o.store type obj).1 } := by
  rw [configMapKeys_eq]
  refine ⟨?_, rfl⟩
  rcases replaced? o.config type obj with e | (_ | w)
  · exact ⟨_, rfl⟩
  · exact ⟨_, rfl⟩
  · exact ⟨_, rfl⟩

theorem observeConfigMap_eq (o : Operator) (type : EventType) (obj : Value) : o.observeConfigMap type obj =
    match o.write (.configMap type obj) with
    | .error e => (.error e, o)
    | .ok (old, o') => o'.enqueue (o'.keysOf old (.configMap type obj)) := by
  obtain ⟨⟨w, hw⟩, -⟩ := sameBase_configMap o type obj
  have hkeys : (configMapKeys (configMapKeys o.config o.store type obj).1 o.store type obj).2 =
    (configMapKeys o.config o.store type obj).2 := by
    rw [show (configMapKeys o.config o.store type obj).1 = _ from hw, configMapKeys_snd]
  show (_ : Operator).enqueue (configMapKeys o.config o.store type obj).2 = (_ : Operator).enqueue _
  rw [← hkeys]
  rfl

/-! ## What a write does to a key -/

/-- What the first half of a handler does to what is read for a key: it changes nothing, or the second
half will find the key. -/
structure Effect (ordered : Prop) (o : Operator) (e : Change) (k : String) (old : Option Value)
    (o' : Operator) : Prop where
  base : SameBase o o'
  wellFormed : o'.store.WellFormed ordered
  finds : Finds ordered o old e
  service : Announces o old e k ∨ Option.Rel (SameService ordered) (o.inputs.classed k) (o'.inputs.classed k)
  aspects (a : Aspect) : a.Same o.inputs o'.inputs k ∨ Concerns ordered o old e k

theorem rel_classed (ho : o.store.WellFormed ordered) (h : o'.inputs.classed k = o.inputs.classed k) :
    Option.Rel (SameService ordered) (o.inputs.classed k) (o'.inputs.classed k) := by
  rw [h]
  cases hk : o.inputs.classed k with
  | none => exact .none
  | some v => exact .some (.refl (ho.shaped .service nofun (Option.filter_eq_some_iff.1 hk).1))

theorem rel_endpoints {s t : Store} (hs : s.WellFormed ordered)
    (h : t.endpoints.get? (.text k) = s.endpoints.get? (.text k)) :
    Option.Rel SameEndpoints (s.endpoints.get? (.text k)) (t.endpoints.get? (.text k)) := by
  rw [h]
  cases hk : s.endpoints.get? (.text k) with
  | none => exact .none
  | some v => exact .some (.refl (hs.shaped .endpoints nofun hk))

/-- The first half of a handler of an event on an object that is stored as it is. -/
theorem write_object (o : Operator) (kind : ObjectKind) (type : EventType)
    {key : String} (hkind : kind ≠ .pod) (hkey : objectKey obj = .ok (.text key)) :
    o.write (.object kind type obj) = .ok ((o.store.table kind).get? (.text key),
      { o with store := o.store.setTable (changed type (.text key) obj (o.store.table kind)) kind }) := by
  unfold write
  dsimp only
  rw [record_eq o kind type hkind hkey]
  rfl

theorem isUnchanged_cases (type : EventType) (old : Option Value) (changed : Value → Except Error Bool)
    (h : ∀ v, old = some v → ∃ b, changed v = .ok b) :
    isUnchanged type old changed = .ok true ∧ type = .modified ∧ (∃ v, old = some v ∧ changed v = .ok false) ∨
      isUnchanged type old changed = .ok false := by
  cases old with
  | none => exact .inr (by cases type <;> rfl)
  | some v =>
    cases type with
    | modified =>
      obtain ⟨b, hb⟩ := h v rfl
      show (changed v >>= fun b => .ok !b) = .ok true ∧ _ ∨ (changed v >>= fun b => .ok !b) = .ok false
      rw [hb]
      cases b with
      | true => exact .inr rfl
      | false => exact .inl ⟨rfl, rfl, v, rfl, hb⟩
    | _ => exact .inr rfl

theorem anyOfClass_eq {serviceClass : Value} {vs : List Value}
    (h : ∀ v ∈ vs, isOfClass serviceClass v = .ok (isClassed serviceClass v)) :
    anyOfClass serviceClass vs = .ok (vs.any (isClassed serviceClass)) := by
  induction vs with
  | nil => rfl
  | cons v vs ih =>
    obtain ⟨hv, hvs⟩ := List.forall_mem_cons.1 h
    unfold anyOfClass
    rw [hv, ih hvs]
    cases hb : isClassed serviceClass v with
    | true => rw [List.any_cons, hb]; rfl
    | false => rw [List.any_cons, hb]; rfl

/-- The keys that an event on a Service concerns: that of the Service, or none. -/
theorem serviceKeys_cases (serviceClass : Value) (type : EventType) (old : Option Value) {key : String}
    (hobj : IsService ordered obj)
    (hkey : objectKey obj = .ok (.text key))
    (hold : ∀ v, old = some v → IsService ordered v ∧ objectKey v = .ok (.text key)) :
    serviceKeys serviceClass type old obj = .ok [.text key] ∨
      serviceKeys serviceClass type old obj = .ok [] ∧
        ((∃ v, old = some v ∧ type ≠ .deleted ∧ SameService ordered v obj) ∨
        isClassed serviceClass obj = false ∧ ∀ v, old = some v → isClassed serviceClass v = false) := by
  have hclass : ∀ v ∈ old.toList ++ [obj], isOfClass serviceClass v = .ok (isClassed serviceClass v) := by
    intro v hv
    rcases List.mem_append.1 hv with hv | hv
    · exact (hold v (Option.mem_toList.1 hv)).1.isOfClass_ok _
    · rw [List.mem_singleton.1 hv]
      exact hobj.isOfClass_ok _
  unfold serviceKeys
  rcases isUnchanged_cases type old (serviceChanged · obj) fun v hv =>
    ⟨_, serviceChanged_eq (hold v hv).1 hobj⟩
    with ⟨hunchanged, rfl, v, hv, hsame⟩ | hchanged
  · rw [hunchanged]
    exact .inr ⟨rfl, .inl ⟨v, hv, nofun, sameService_of_unchanged (hold v hv).1 hobj
      (hold v hv).2 hkey hsame⟩⟩
  · rw [hchanged, anyOfClass_eq hclass, hkey]
    cases hany : (old.toList ++ [obj]).any (isClassed serviceClass) with
    | true => exact .inl rfl
    | false =>
      rw [List.any_eq_false] at hany
      refine .inr ⟨rfl, .inr ⟨?_, fun v hv => ?_⟩⟩
      · exact Bool.eq_false_iff.2 (hany obj (List.mem_append_right _ (List.mem_singleton.2 rfl)))
      · exact Bool.eq_false_iff.2 (hany v (List.mem_append_left _ (Option.mem_toList.2 hv)))

/-- What is read for a key after an event on a Service. -/
theorem classed_changed (o : Operator) (type : EventType) (obj : Value) (key k : String) :
    (Operator.inputs { o with
      store := o.store.setTable (changed type (.text key) obj (o.store.table .service))
        .service }).classed k =
      if key = k then (if type = .deleted then none else some obj).filter (isClassed o.config.serviceClass)
      else o.inputs.classed k := by
  refine (congrArg (Option.filter (isClassed o.config.serviceClass))
    (get?_setTable o.store .service type obj key k)).trans ?_
  split <;> rfl

/-- What is not of the class is not read, before or after. -/
theorem filter_changed (hobj : isClassed c.serviceClass obj = false) (type : EventType) :
    (if type = .deleted then none else some obj).filter (isClassed c.serviceClass) = none := by
  split
  · rfl
  · rw [Option.filter_some, hobj]
    rfl

theorem effect_service (ho : o.store.WellFormed ordered) (type : EventType)
    (hobj : IsService ordered obj) (k : String) :
    ∃ old o', o.write (.object .service type obj) = .ok (old, o') ∧
      Effect ordered o (.object .service type obj) k old o' := by
  obtain ⟨_, key, _, hkey, -⟩ := hobj.named.objectKey
  have hwrite := write_object o .service type nofun hkey
  obtain ⟨_, t, hrecord, hwf⟩ := ho.record .service type hobj
  rw [record_eq o .service type nofun hkey] at hrecord
  cases hrecord
  have hkeys := serviceKeys_cases o.config.serviceClass type (o.store.services.get? (.text key)) hobj hkey
    fun v hv => ho.of_get? .service nofun hv
  refine ⟨_, _, hwrite, ⟨⟨o.config.internetFacing, rfl⟩, rfl⟩, hwf, ?_, ?_, fun a => .inl ?_⟩
  · intro o' hbase _
    show ∃ keys, serviceKeys o'.config.serviceClass type
      (o.store.services.get? (.text key)) obj = .ok keys ∧ _
    rw [hbase.serviceClass]
    exact hkeys.elim (fun h => ⟨_, h, List.forall_mem_singleton.2 ⟨key, rfl⟩⟩) fun h =>
      ⟨_, h.1, List.forall_mem_nil _⟩
  · by_cases hk : key = k
    · rcases hkeys with hkeys | ⟨-, h⟩
      · refine .inl fun o' hbase => ⟨[.text key], ?_, List.mem_singleton.2 (congrArg _ hk.symm)⟩
        show serviceKeys o'.config.serviceClass type (o.store.services.get? (.text key)) obj = _
        rw [hbase.serviceClass, hkeys]
      · refine .inr ?_
        rw [classed_changed, if_pos hk]
        show Option.Rel _ ((o.store.services.get? (.text k)).filter (isClassed o.config.serviceClass)) _
        rw [← hk]
        rcases h with ⟨v, hv, htype, hsame⟩ | ⟨hnot, hnone⟩
        · rw [hv, if_neg htype]
          exact optionRel_filter (.some hsame) fun _ _ h => isClassed_eq h _
        · rw [Option.filter_eq_none_iff.2 fun v hv => by
            rw [hnone v hv]; exact Bool.false_ne_true, filter_changed hnot]
          exact .none
    · exact .inr (rel_classed ho (by rw [classed_changed, if_neg hk]))
  · cases a with
    | endpoints => exact rel_endpoints ho rfl
    | nodes => rfl
    | config => rfl

/-- The keys that an event on Endpoints concerns: that of the Service of the name, if it is of the class
and the subsets changed.
-/
theorem endpointsKeys_cases (ordered : Prop) (serviceClass : Value) (type : EventType)
    (old : Option Value) {key : String} (hobj : IsEndpoints obj)
    (hkey : objectKey obj = .ok (.text key)) (hold : ∀ v, old = some v → IsEndpoints v) :
    (∀ s : Store, s.WellFormed ordered → endpointsKeys serviceClass s type old obj =
      .ok (if ((s.services.get? (.text key)).filter (isClassed serviceClass)).isSome then
        [.text key] else [])) ∨
    (∀ s, endpointsKeys serviceClass s type old obj = .ok []) ∧ ∃ v, old = some v ∧ type ≠ .deleted ∧
      SameEndpoints v obj := by
  have hget : ∀ {v : Value}, IsEndpoints v → v.get "subsets" = .ok (Fields.get v.fields "subsets") := by
    intro v hv
    obtain ⟨fs, rfl⟩ := hv.exists_fields
    rfl
  unfold endpointsKeys
  rcases isUnchanged_cases type old (fun old => do return !(← old.get "subsets").same (← obj.get "subsets"))
    fun v hv => ⟨_, by rw [hget (hold v hv), hget hobj]; rfl⟩ with ⟨hunchanged, rfl, v, hv, hsame⟩ | hchanged
  · rw [hget (hold v hv), hget hobj] at hsame
    refine .inr ⟨fun s => ?_, v, hv, nofun, sameEndpoints_of_same (hold v hv) hobj
      (by simpa using Except.ok.inj hsame)⟩
    rw [hunchanged]
    rfl
  · refine .inl fun s hs => ?_
    rw [hchanged, hkey]
    refine bind_eq_ok_iff.2 ⟨false, rfl, bind_eq_ok_iff.2
      ⟨_, rfl, bind_eq_ok_iff.2 ⟨s.services.get? (.text key), rfl, ?_⟩⟩⟩
    cases hservice : s.services.get? (.text key) with
    | none => rfl
    | some service =>
      show (isOfClass serviceClass service >>= fun b => if b = true then _ else _) = _
      rw [(hs.of_get? .service nofun hservice).1.isOfClass_ok, Option.filter_some]
      cases isClassed serviceClass service <;> rfl

theorem effect_endpoints (ho : o.store.WellFormed ordered) (type : EventType)
    (hobj : IsEndpoints obj) (k : String) :
    ∃ old o', o.write (.object .endpoints type obj) = .ok (old, o') ∧
      Effect ordered o (.object .endpoints type obj) k old o' := by
  obtain ⟨_, key, _, hkey, -⟩ := hobj.named.objectKey
  have hwrite := write_object o .endpoints type nofun hkey
  obtain ⟨_, t, hrecord, hwf⟩ := ho.record .endpoints type hobj
  rw [record_eq o .endpoints type nofun hkey] at hrecord
  cases hrecord
  have hkeys := endpointsKeys_cases ordered o.config.serviceClass type
    (o.store.endpoints.get? (.text key)) hobj hkey
    fun v hv => (ho.of_get? .endpoints nofun hv).1
  have hget := get?_setTable o.store .endpoints type obj key k
  refine ⟨_, _, hwrite, ⟨⟨o.config.internetFacing, rfl⟩, rfl⟩, hwf, ?_,
    .inr (rel_classed ho rfl), fun a => ?_⟩
  · intro o' hbase hwf'
    show ∃ keys, endpointsKeys o'.config.serviceClass o'.store type
      (o.store.endpoints.get? (.text key)) obj = .ok keys ∧ _
    rw [hbase.serviceClass]
    refine hkeys.elim (fun h => ⟨_, h _ hwf', ?_⟩) fun h => ⟨_, h.1 _, List.forall_mem_nil _⟩
    split
    · exact List.forall_mem_singleton.2 ⟨key, rfl⟩
    · exact List.forall_mem_nil _
  · cases a with
    | endpoints =>
      by_cases hk : key = k
      · subst hk
        rcases hkeys with hkeys | ⟨-, v, hv, htype, hsame⟩
        · refine .inr fun o' hbase hwf' hclassed => ⟨[.text key], ?_, List.mem_singleton.2 rfl⟩
          show endpointsKeys o'.config.serviceClass o'.store type (o.store.endpoints.get? (.text key)) obj = _
          rw [hbase.serviceClass, hkeys _ hwf', ← hbase.serviceClass]
          exact congrArg Except.ok (if_pos hclassed)
        · refine .inl ?_
          rw [if_pos rfl, if_neg htype] at hget
          show Option.Rel SameEndpoints (o.store.endpoints.get? (.text key))
            ((o.store.setTable (changed type (.text key) obj (o.store.table .endpoints)) .endpoints).table
              .endpoints |>.get? (.text key))
          rw [hv, hget]
          exact .some hsame
      · rw [if_neg hk] at hget
        exact .inl (rel_endpoints ho hget)
    | nodes => exact .inl rfl
    | config => exact .inl rfl

/-- The keys that an event on a node concerns: all, unless nothing changed. -/
theorem nodeKeys_cases (serviceClass : Value) (type : EventType) (old : Option Value)
    {key : String} (hobj : IsNode obj) (hkey : objectKey obj = .ok (.text key))
    (hold : ∀ v, old = some v → IsNode v ∧ objectKey v = .ok (.text key)) :
    (∀ s : Store, nodeKeys serviceClass s type old obj = qualifyingKeys serviceClass s) ∨
    (∀ s, nodeKeys serviceClass s type old obj = .ok []) ∧ ∃ v, old = some v ∧
      type ≠ .deleted ∧ SameNode v obj := by
  have hok : ∀ v, old = some v → ∃ b, nodeChanged v obj = .ok b := by
    intro v hv
    obtain ⟨b, hb⟩ := (hold v hv).1.isEligible
    obtain ⟨b', hb'⟩ := hobj.isEligible
    unfold nodeChanged
    rw [hb, hb', (hold v hv).1.providerId_eq, hobj.providerId_eq]
    exact ⟨_, rfl⟩
  unfold nodeKeys
  rcases isUnchanged_cases type old (nodeChanged · obj) hok with ⟨hunchanged, rfl, v, hv, hsame⟩ | hchanged
  · rw [hunchanged]
    exact .inr ⟨fun _ => rfl, v, hv, nofun, sameNode_of_unchanged (hold v hv).1 hobj (hold v hv).2 hkey hsame⟩
  · rw [hchanged]
    exact .inl fun _ => rfl

theorem effect_node (ho : o.store.WellFormed ordered) (type : EventType) (hobj : IsNode obj) (k : String) :
    ∃ old o', o.write (.object .node type obj) = .ok (old, o') ∧
      Effect ordered o (.object .node type obj) k old o' := by
  obtain ⟨_, key, _, hkey, -⟩ := hobj.named.objectKey
  have hwrite := write_object o .node type nofun hkey
  obtain ⟨_, t, hrecord, hwf⟩ := ho.record .node type hobj
  rw [record_eq o .node type nofun hkey] at hrecord
  cases hrecord
  have hkeys := nodeKeys_cases o.config.serviceClass type (o.store.nodes.get? (.text key)) hobj hkey
    fun v hv => ho.of_get? .node nofun hv
  refine ⟨_, _, hwrite, ⟨⟨o.config.internetFacing, rfl⟩, rfl⟩, hwf, ?_,
    .inr (rel_classed ho rfl), fun a => ?_⟩
  · intro o' hbase hwf'
    show ∃ keys, nodeKeys o'.config.serviceClass o'.store type
      (o.store.nodes.get? (.text key)) obj = .ok keys ∧ _
    rw [hbase.serviceClass]
    rcases hkeys with hkeys | ⟨hkeys, -⟩
    · obtain ⟨keys, h, htexts, -⟩ := qualifyingKeys_ok hwf' o.config.serviceClass
      exact ⟨keys, (hkeys _).trans h, htexts⟩
    · exact ⟨_, hkeys _, List.forall_mem_nil _⟩
  · cases a with
    | endpoints => exact .inl (rel_endpoints ho rfl)
    | nodes =>
      rcases hkeys with hkeys | ⟨-, v, hv, htype, hsame⟩
      · refine .inr fun o' hbase hwf' hclassed => ?_
        obtain ⟨keys, h, -, hmem⟩ := qualifyingKeys_ok hwf' o'.config.serviceClass
        refine ⟨keys, ?_, hmem k hclassed⟩
        show nodeKeys o'.config.serviceClass o'.store type (o.store.nodes.get? (.text key)) obj = _
        rw [hbase.serviceClass, hkeys, ← hbase.serviceClass, h]
      · exact .inl (instanceIds_insert hv (if_neg htype) hsame)
    | config => exact .inl rfl

theorem effect_pod (ho : o.store.WellFormed ordered) (type : EventType) (hobj : IsPod obj) (k : String) :
    ∃ old o', o.write (.object .pod type obj) = .ok (old, o') ∧
      Effect ordered o (.object .pod type obj) k old o' := by
  obtain ⟨old, t, hrecord, hwf⟩ := ho.record .pod type hobj
  obtain ⟨_, pods, hpods⟩ := record_pod o type hobj
  rw [hrecord] at hpods
  cases hpods
  have hwrite : o.write (.object .pod type obj) =
      .ok (old, { o with store := o.store.setTable pods .pod }) := by
    unfold write
    dsimp only
    rw [hrecord]
    rfl
  refine ⟨_, _, hwrite, ⟨⟨o.config.internetFacing, rfl⟩, rfl⟩, hwf,
    fun _ _ _ => ⟨[], rfl, List.forall_mem_nil _⟩, .inr (rel_classed ho rfl), fun a => .inl ?_⟩
  cases a with
  | endpoints => exact rel_endpoints ho rfl
  | nodes => rfl
  | config => rfl

theorem replaced?_ok (c : Config) (type : EventType) (hobj : IsConfigMap obj) :
    ∃ r, replaced? c type obj = .ok r := by
  obtain ⟨m, hm, hname⟩ := hobj.named.get_metadata "name"
  obtain ⟨m', hm', hns⟩ := hobj.named.get_metadata "namespace"
  rw [hm] at hm'
  cases hm'
  have hholds : ∃ b, isWhitelist c obj = .ok b := by
    cases hb : (metaOf obj "name").same (.text whitelistName) with
    | false => exact ⟨false, bind_eq_ok_iff.2 ⟨m, hm, bind_eq_ok_iff.2 ⟨_, hname, by rw [hb]; rfl⟩⟩⟩
    | true => exact ⟨_, bind_eq_ok_iff.2
      ⟨m, hm, bind_eq_ok_iff.2 ⟨_, hname, by rw [hb]; exact bind_eq_ok_iff.2 ⟨_, hns, rfl⟩⟩⟩⟩
  have hafter : ∃ w, whitelistAfter type obj = .ok w := by
    obtain ⟨fs, -, rfl, -⟩ := hobj.named.exists_metadata
    unfold whitelistAfter
    split
    · exact ⟨_, rfl⟩
    · exact parseWhitelist_isOk (IsTexts.isPart hobj.data) fun e he => IsTexts.text_of_mem hobj.data he
  obtain ⟨b, hb⟩ := hholds
  obtain ⟨w, hw⟩ := hafter
  unfold replaced?
  rw [hb, hw]
  cases c.restrictScheme.holds with
  | false => exact ⟨_, rfl⟩
  | true => cases b <;> exact ⟨_, rfl⟩

theorem effect_configMap (ho : o.store.WellFormed ordered) (type : EventType)
    (hobj : IsConfigMap obj) (k : String) :
    ∃ old o', o.write (.configMap type obj) = .ok (old, o') ∧
      Effect ordered o (.configMap type obj) k old o' := by
  have hkeys : ∀ o', SameBase o o' → (configMapKeys o'.config o'.store type obj).2 =
    (configMapKeys o.config o'.store type obj).2 := by
    rintro o' ⟨⟨w, hw⟩, -⟩
    rw [hw, configMapKeys_snd]
  obtain ⟨r, hr⟩ := replaced?_ok o.config type hobj
  have hbase := sameBase_configMap o type obj
  refine ⟨none, _, rfl, hbase, ho, ?_, .inr (rel_classed ho ?_), fun a => ?_⟩
  · intro o' hbase' hwf'
    obtain ⟨keys, h, htexts, -⟩ := qualifyingKeys_ok hwf' o.config.serviceClass
    show ∃ keys, (configMapKeys o'.config o'.store type obj).2 = .ok keys ∧ _
    rw [hkeys o' hbase', configMapKeys_eq, hr]
    cases r with
    | none => exact ⟨[], rfl, List.forall_mem_nil _⟩
    | some w => exact ⟨keys, h, htexts⟩
  · show (o.store.services.get? (.text k)).filter
      (isClassed (configMapKeys o.config o.store type obj).1.serviceClass) = _
    rw [show (configMapKeys o.config o.store type obj).1.serviceClass = _ from hbase.serviceClass]
    rfl
  · cases a with
    | endpoints => exact .inl (rel_endpoints ho rfl)
    | nodes => exact .inl rfl
    | config =>
      cases r with
      | none =>
        refine .inl ?_
        show o.config = (configMapKeys o.config o.store type obj).1
        rw [configMapKeys_eq, hr]
      | some w =>
        refine .inr fun o' hbase' hwf' hclassed => ?_
        obtain ⟨keys, h, -, hmem⟩ := qualifyingKeys_ok hwf' o'.config.serviceClass
        refine ⟨keys, ?_, hmem k hclassed⟩
        show (configMapKeys o'.config o'.store type obj).2 = _
        rw [hkeys o' hbase', configMapKeys_eq, hr, ← h, hbase'.serviceClass]

/-- What the first half of a handler does to what is read for a key. -/
theorem write_effect (ho : o.store.WellFormed ordered) (he : e.IsWellFormed ordered) (k : String) :
    ∃ old o', o.write e = .ok (old, o') ∧ Effect ordered o e k old o' := by
  cases e with
  | configMap type obj => exact effect_configMap ho type he k
  | object kind type obj =>
    cases kind with
    | service => exact effect_service ho type he k
    | endpoints => exact effect_endpoints ho type he k
    | node => exact effect_node ho type he k
    | pod => exact effect_pod ho type he k

end

end Operator

end Balancer
