import Balancer.Cluster.Store
import Balancer.Proofs.Cluster.Object

/-!
# Stored objects

* `table_setTable`, `upsert_of_objectKey` : what a changed store has;
* `Keyed s` : every object is stored under its own key; `Keyed.upsert`, `Keyed.delete`;
* `settings_of_get?` : what is read of the annotations of a stored Service.
-/

namespace Balancer

set_option autoImplicit false

section

variable {service obj : Value} {kind kind' : ObjectKind} {s : Store} {t : Table Key Value} {k k' : String}

namespace Store

open Cluster

theorem table_setTable (s : Store) (t : Table Key Value) (kind kind' : ObjectKind) :
    (s.setTable t kind).table kind' = if kind = kind' then t else s.table kind' := by
  cases kind <;> cases kind' <;> rfl

theorem find?_text (s : Store) (kind : ObjectKind) (k : String) :
    s.find? kind (.text k) = .ok ((s.table kind).get? (.text k)) := rfl

theorem find_text (s : Store) (kind : ObjectKind) (k : String) :
    s.find kind (.text k) = ((s.table kind).get? (.text k)).elim (.error (.notFound (.text k))) .ok := by
  unfold find
  rw [find?_text]
  cases (s.table kind).get? (.text k) <;> rfl

/-- What is read of the annotations of a stored Service. -/
theorem settings_of_get? {c : Config} (h : s.services.get? (.text k) = some service) :
    s.settings c (.text k) = annotations service >>= ServiceSettings.parse c := by
  have hfind : s.service (.text k) = .ok service := by
    rw [Store.service, find_text]
    show (s.services.get? (.text k)).elim _ _ = _
    rw [h]
    rfl
  unfold settings
  rw [hfind]
  rfl

/-- A stored object but a pod is kept as it is. -/
theorem upsert_of_objectKey (hkind : kind ≠ .pod) (h : objectKey obj = .ok (.text k)) :
    s.upsert kind obj = .ok ((s.table kind).get? (.text k),
      s.setTable ((s.table kind).insert (.text k) obj) kind) := by
  have hsnapshot : snapshot kind obj = .ok obj := by
    cases kind <;> first | rfl | exact absurd rfl hkind
  unfold upsert
  rw [hsnapshot]
  exact bind_eq_ok_iff.2 ⟨obj, rfl, bind_eq_ok_iff.2 ⟨_, h, rfl⟩⟩

/-- Every object is stored under its own key. -/
def Keyed (s : Store) : Prop :=
  ∀ kind k obj, (s.table kind).get? k = some obj →
    ∃ v own, objectKey obj = .ok v ∧ v.key = .ok own ∧ (own == k) = true

theorem keyed_empty : Keyed {} := fun kind k obj h => by cases kind <;> cases h

theorem Keyed.upsert {old : Option Value} {t : Store} (hs : s.Keyed)
    (h : s.upsert kind obj = .ok (old, t)) : t.Keyed := by
  obtain ⟨kept, -, h⟩ := bind_eq_ok_iff.1 h
  obtain ⟨v, hv, h⟩ := bind_eq_ok_iff.1 h
  obtain ⟨own, hown, h⟩ := bind_eq_ok_iff.1 h
  cases h
  intro kind' k obj' hk
  rw [table_setTable] at hk
  by_cases hkind : kind = kind'
  · subst hkind
    rw [if_pos rfl] at hk
    rcases Table.get?_insert_eq_some_iff.1 hk with ⟨heq, rfl⟩ | ⟨-, hk⟩
    · exact ⟨v, own, hv, hown, heq⟩
    · exact hs kind k obj' hk
  · rw [if_neg hkind] at hk
    exact hs kind' k obj' hk

theorem Keyed.delete {old : Option Value} {t : Store} (hs : s.Keyed)
    (h : s.delete kind obj = .ok (old, t)) : t.Keyed := by
  obtain ⟨v, -, h⟩ := bind_eq_ok_iff.1 h
  obtain ⟨⟨old', left⟩, hleft, h⟩ := bind_eq_ok_iff.1 h
  cases h
  have hless : ∀ k obj', left.get? k = some obj' → (s.table kind).get? k = some obj' := by
    intro k obj' hk
    unfold Table.take at hleft
    split at hleft
    · cases hleft
      exact hk
    · obtain ⟨own, -, hleft⟩ := bind_eq_ok_iff.1 hleft
      cases hleft
      exact (Table.get?_erase_eq_some_iff.1 hk).2
  intro kind' k obj' hk
  rw [table_setTable] at hk
  by_cases hkind : kind = kind'
  · subst hkind
    rw [if_pos rfl] at hk
    exact hs kind k obj' (hless k obj' hk)
  · rw [if_neg hkind] at hk
    exact hs kind' k obj' hk

/-- A Service whose namespace and name are texts is found under its own key only. -/
theorem Keyed.objectKey_eq {ns name : String} {key : Value} (hs : s.Keyed)
    (h : s.find? .service key = .ok (some service)) (hnames : names service = .ok (.text ns, .text name)) :
    objectKey service = .ok key := by
  obtain ⟨own, hown⟩ := exists_objectKey_of_texts hnames
  obtain ⟨k, hk, h⟩ := bind_eq_ok_iff.1 h
  obtain ⟨v, k', hv, hk', heq⟩ := hs .service k service (Except.ok.inj h)
  rw [hown] at hv
  cases hv
  cases hk'
  rw [hown, Value.eq_toValue_of_key hk, Key.beq_text_iff.1 (BEq.symm heq)]
  rfl

end Store

end

end Balancer
