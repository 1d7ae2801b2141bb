import Balancer.Operator
import Balancer.Proofs.Cluster.Store
import Balancer.Proofs.Cluster.WellFormed

/-!
# Changes of a store

* `Store.WellFormed` : every object is stored under its own key and has the shape of its kind;
  `WellFormed.record` : so it stays;
* `changed type k obj t` : a table after an event. `record_eq` : what an event does to a store.
-/

namespace Balancer

set_option autoImplicit false

open Cluster Value Routing

/-! ## Well-formed stores -/

/-- Objects of a store stand under their own keys and are well-formed. `ordered` says that annotations are in
the order of their names. -/
structure Store.WellFormed (ordered : Prop) (s : Store) : Prop where
  keyed : s.Keyed
  shaped (kind : ObjectKind) {k : Key} {obj : Value} : kind ≠ .pod → (s.table kind).get? k = some obj →
    IsObject ordered kind obj

section

variable {ordered : Prop} {s : Store} {kind : ObjectKind} {obj : Value} {k : Key}

theorem Cluster.IsObject.named (h : IsObject ordered kind obj) : Named obj := by
  cases kind with
  | service => exact (IsService.named h).toNamed
  | endpoints => exact (IsEndpoints.named h).toNamed
  | node => exact IsNode.named h
  | pod => exact (IsPod.named h).toNamed

theorem Store.wellFormed_empty (ordered : Prop) : Store.WellFormed ordered {} :=
  ⟨Store.keyed_empty, fun kind _ _ _ hk => by cases kind <;> cases hk⟩

/-- An object is found under the text that is its key. -/
theorem Store.WellFormed.objectKey (h : s.WellFormed ordered) (kind : ObjectKind) (hkind : kind ≠ .pod)
    (hk : (s.table kind).get? k = some obj) :
    ∃ key : String, k = .text key ∧ Cluster.objectKey obj = .ok (.text key) := by
  obtain ⟨_, key, _, hkey, -⟩ := (h.shaped kind hkind hk).named.objectKey
  obtain ⟨v, own, hv, hown, heq⟩ := h.keyed kind k obj hk
  rw [hkey] at hv
  cases hv
  cases hown
  exact ⟨key, Key.beq_text_iff.1 (BEq.symm heq), hkey⟩

theorem Store.WellFormed.of_get? {key : String} (h : s.WellFormed ordered) (kind : ObjectKind)
    (hkind : kind ≠ .pod) (hk : (s.table kind).get? (.text key) = some obj) :
    IsObject ordered kind obj ∧ Cluster.objectKey obj = .ok (.text key) := by
  obtain ⟨own, heq, hown⟩ := h.objectKey kind hkind hk
  cases heq
  exact ⟨h.shaped kind hkind hk, hown⟩

/-! ## Events -/

/-- A table after an event on an object of a key. -/
def changed (type : EventType) (k : Key) (obj : Value) (t : Table Key Value) : Table Key Value :=
  if type = .deleted then t.erase k else t.insert k obj

theorem get?_changed (type : EventType) (k k' : Key) (obj : Value) (t : Table Key Value) :
    (changed type k obj t).get? k' = if k == k' then
      (if type = .deleted then none else some obj) else t.get? k' := by
  unfold changed
  split
  · exact Table.get?_erase t k k'
  · exact Table.get?_insert t k k' obj

theorem get?_setTable (s : Store) (kind : ObjectKind) (type : EventType) (obj : Value) (key k : String) :
    ((s.setTable (changed type (.text key) obj (s.table kind)) kind).table kind).get? (.text k) =
      if key = k then (if type = .deleted then none else some obj) else (s.table kind).get? (.text k) := by
  rw [Store.table_setTable, if_pos rfl, get?_changed]
  by_cases h : key = k
  · rw [if_pos h, if_pos (by rw [h]; exact BEq.rfl)]
  · rw [if_neg h, if_neg (by rw [Key.text_beq_text]; simpa using h)]

theorem take_text (t : Table Key Value) (k : String) :
    t.take (.text k) = .ok (t.get? (.text k), t.erase (.text k)) := by
  unfold Table.take
  split
  · rename_i hempty
    obtain ⟨entries, distinct⟩ := t
    obtain rfl : entries = [] := List.isEmpty_iff.1 hempty
    rfl
  · rfl

theorem record_eq (o : Operator) (kind : ObjectKind) (type : EventType) {key : String} (hkind : kind ≠ .pod)
    (hkey : Cluster.objectKey obj = .ok (.text key)) : o.record kind type obj =
      .ok ((o.store.table kind).get? (.text key),
        o.store.setTable (changed type (.text key) obj (o.store.table kind)) kind) := by
  unfold Operator.record changed
  split
  · unfold Store.delete
    rw [hkey]
    show ((o.store.table kind).take (.text key) >>= _) = _
    rw [take_text]
    rfl
  · exact Store.upsert_of_objectKey hkind hkey

/-! ## Pods -/

/-- A field of an object with its name, if there is one. -/
def fieldOf? (fs : Fields) (k : String) : Option (String × Value) := (Entries.find? k fs).map (k, ·)

theorem select_object (fs : Fields) (names : List String) :
    Store.select (.object fs) names = .ok (names.filterMap (fieldOf? fs)) := by
  unfold Store.select
  conv_lhs => rw [← List.map_id names]
  refine filterMapM_map_ok fun k _ => ?_
  show ((.ok (Entries.find? k fs).isSome : Except Error Bool) >>= fun b => if b = true then _ else _) =
      .ok (fieldOf? fs k)
  rw [item_object, fieldOf?]
  unfold Fields.item
  rw [id]
  cases Entries.find? k fs <;> rfl

theorem find?_of_get_ne_null {fs : Fields} {k : String} (h : Fields.get fs k ≠ .null) :
    Entries.find? k fs = some (Fields.get fs k) := by
  unfold Fields.get at *
  cases hk : Entries.find? k fs with
  | none =>
    rw [hk] at h
    exact absurd rfl h
  | some v => rfl

/-- What is kept of a pod has the key of the pod. -/
theorem exists_snapshot (h : IsPod obj) :
    ∃ kept key, Store.snapshot .pod obj = .ok kept ∧ Cluster.objectKey kept = .ok (.text key) ∧
      Cluster.objectKey obj = .ok (.text key) := by
  obtain ⟨ns, n, hns, hn, -, hkey⟩ := h.named.exists_names
  obtain ⟨fs, ms, rfl, -, hmetadata, hmeta⟩ := h.named.exists_metadata
  rw [hmeta] at hns hn
  have hselected : ["name", "namespace"].filterMap (fieldOf? ms) =
      [("name", .text n), ("namespace", .text ns)] := by
    have hname : Entries.find? "name" ms = some (.text n) := by
      rw [find?_of_get_ne_null, hn]; rw [hn]; exact nofun
    have hnamespace : Entries.find? "namespace" ms = some (.text ns) := by
      rw [find?_of_get_ne_null, hns]; rw [hns]; exact nofun
    simp [fieldOf?, hname, hnamespace]
  have hstatus : part (.object fs) "status" = .ok (.object (Fields.get fs "status").fields) :=
    bind_eq_ok_iff.2 ⟨_, get_object _ _, congrArg Except.ok h.status.orElse_eq⟩
  refine ⟨.object [("metadata", .object [("name", .text n), ("namespace", .text ns)]),
    ("status", .object (["podIP", "hostIP"].filterMap (fieldOf? (Fields.get fs "status").fields)))],
    _, ?_, ?_, hkey⟩
  · unfold Store.snapshot
    rw [hmetadata]
    show (Store.select (.object ms) _ >>= _) = _
    rw [select_object, hselected, hstatus]
    show (Store.select (.object (Fields.get fs "status").fields) _ >>= _) = _
    rw [select_object]
    rfl
  · refine objectKey_of_names (show names (.object _) = .ok (.text ns, .text n) from rfl) ?_
    rw [← hns, ← hmeta]
    exact h.named.holds

/-- An event on a pod changes nothing but the pods. -/
theorem record_pod (o : Operator) (type : EventType) (h : IsPod obj) :
    ∃ old t, o.record .pod type obj = .ok (old, o.store.setTable t .pod) := by
  obtain ⟨kept, key, hkept, hkey, hown⟩ := exists_snapshot h
  unfold Operator.record
  split
  · refine ⟨_, _, bind_eq_ok_iff.2 ⟨_, hown, bind_eq_ok_iff.2 ⟨_, take_text _ _, rfl⟩⟩⟩
  · exact ⟨_, _, bind_eq_ok_iff.2 ⟨kept, hkept, bind_eq_ok_iff.2 ⟨_, hkey, rfl⟩⟩⟩

theorem Store.WellFormed.record {o : Operator} (h : o.store.WellFormed ordered)
    (kind : ObjectKind) (type : EventType) (hobj : IsObject ordered kind obj) :
    ∃ old t, o.record kind type obj = .ok (old, t) ∧ t.WellFormed ordered := by
  have hkeyed : ∀ {old t}, o.record kind type obj = .ok (old, t) → t.Keyed := by
    intro old t hrecord
    unfold Operator.record at hrecord
    split at hrecord
    · exact h.keyed.delete hrecord
    · exact h.keyed.upsert hrecord
  by_cases hkind : kind = .pod
  · subst hkind
    obtain ⟨old, t, hrecord⟩ := record_pod o type hobj
    refine ⟨old, _, hrecord, hkeyed hrecord, fun kind k obj hkind hk => ?_⟩
    rw [Store.table_setTable, if_neg (Ne.symm hkind)] at hk
    exact h.shaped _ hkind hk
  · obtain ⟨_, key, _, hkey, -⟩ := hobj.named.objectKey
    refine ⟨_, _, record_eq o kind type hkind hkey, hkeyed (record_eq o kind type hkind hkey),
      fun kind' k obj' hkind' hk => ?_⟩
    rw [Store.table_setTable] at hk
    split at hk
    · rename_i heq
      subst heq
      rw [get?_changed] at hk
      split at hk
      · split at hk
        · cases hk
        · cases hk
          exact hobj
      · exact h.shaped _ hkind hk
    · exact h.shaped _ hkind' hk

end

end Balancer
