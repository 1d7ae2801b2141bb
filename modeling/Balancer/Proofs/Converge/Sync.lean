import Balancer.Proofs.Converge.Confined
import Balancer.Proofs.Converge.Deletion
import Balancer.Proofs.Converge.Strict

/-!
# What a sync visits

* `visits_deleteService`, `yields_deleteService` : a delete without a load balancer of the name does nothing,
  any other takes away what the load balancer and the tags lead to;
* `visits_sync`, `yields_sync_none`, `yields_sync_some` : a sync is a delete or a reconcile.
-/

namespace Balancer

set_option autoImplicit false

namespace Converge

open Cluster Resources

/-- What a delete leaves in the end: what there was, if there was no load balancer of the name, else
nothing that leads from it. -/
def DeletedTo (i : Inputs) (ns name lbName : String) (s t : Resources) : Prop :=
  (∀ k, ¬ LbNamed lbName k s) ∧ t = s ∨
    ∃ a selector, LbNamed lbName (.text a) s ∧ i.identity.selector (.text ns) (.text name) = .ok selector ∧
      t = tornDown a selector.entries s

section

variable {i : Inputs} {key service : Value} {ns name lbName : String} {s t u : Resources}

theorem yields_dismantle (hs : s.WellFormed) (h : (dismantle i ns name lbName).Yields s () t) :
    DeletedTo i ns name lbName s t := by
  rcases lbNamed_cases lbName hs.ownArns with hnone | ⟨a, fs, hk, hn⟩
  · exact .inl ⟨fun k ⟨fs, hk, hn⟩ => hnone k fs hk hn, ((does_dismantle hnone).1.unique h).2⟩
  · obtain ⟨hyields, -⟩ := dismantle_cases i ns name hs.ownArns hs.uniqueLbNames hk hn
    obtain ⟨selector, hsel, -, rfl⟩ := (yields_tearDown hs.ownArns).1 ((hyields t).1 h)
    exact .inr ⟨a, selector, ⟨fs, hk, hn⟩, hsel, rfl⟩

theorem visits_dismantle (hs : s.WellFormed) (h : (dismantle i ns name lbName).Visits s u) :
    (∃ gone gone', u = (s.dropListeners gone).dropTgs gone') ∨ DeletedTo i ns name lbName s u := by
  rcases lbNamed_cases lbName hs.ownArns with hnone | ⟨a, fs, hk, hn⟩
  · exact .inr (.inl ⟨fun k ⟨fs, hk, hn⟩ => hnone k fs hk hn, or_self_iff.1 ((does_dismantle hnone).2 u h)⟩)
  rcases visits_tearDown
    ((dismantle_cases i ns name hs.ownArns hs.uniqueLbNames hk hn).2 u h) with h | ⟨t, ht, rfl⟩
  · obtain ⟨gone, gone', rfl, -⟩ := visits_strip hs.ownArns h
    exact .inl ⟨gone, gone', rfl⟩
  · obtain ⟨selector, hsel, -, rfl⟩ := (yields_strip hs.ownArns).1 ht
    exact .inr (.inr ⟨a, selector, ⟨fs, hk, hn⟩, hsel, rfl⟩)

theorem yields_deleteService (hs : s.WellFormed) (h : (deleteService i key).Yields s () t) :
    ∃ ns name lbName, splitKey key = .ok (ns, name) ∧ i.identity.nameLb (.text ns) (.text name) = .ok lbName ∧
      DeletedTo i ns name lbName s t := by
  rw [deleteService_eq] at h
  obtain ⟨⟨ns, name⟩, hkey, h⟩ := Program.yields_lift_bind.1 h
  obtain ⟨lbName, hname, h⟩ := Program.yields_lift_bind.1 h
  exact ⟨ns, name, lbName, hkey, hname, yields_dismantle hs h⟩

/-- A delete takes away listeners and target groups, and the load balancer at last. -/
theorem visits_deleteService (hs : s.WellFormed) (h : (deleteService i key).Visits s u) :
    (∃ gone gone', u = (s.dropListeners gone).dropTgs gone') ∨
      ∃ ns name lbName, splitKey key = .ok (ns, name) ∧
        i.identity.nameLb (.text ns) (.text name) = .ok lbName ∧
        DeletedTo i ns name lbName s u := by
  have hself : ∃ gone gone', s = (s.dropListeners gone).dropTgs gone' :=
    ⟨[], [], by rw [dropListeners_nil, dropTgs_nil]⟩
  rw [deleteService_eq] at h
  rcases Program.visits_lift_bind.1 h with rfl | ⟨⟨ns, name⟩, hkey, h⟩
  · exact .inl hself
  rcases Program.visits_lift_bind.1 h with rfl | ⟨lbName, hname, h⟩
  · exact .inl hself
  · exact (visits_dismantle hs h).imp_right fun h => ⟨ns, name, lbName, hkey, hname, h⟩

end

/-! ## A sync -/

/-- The Service of a key if it is to be reconciled. -/
def wantedAt (i : Inputs) (key : Value) : Except Error (Option Value) := do
  wanted? i (← i.store.find? .service key)

section

variable {i : Inputs} {key service : Value} {lb : LoadBalancer} {s t u : Resources}

theorem find?_of_wantedAt (h : wantedAt i key = .ok (some service)) :
    i.store.find? .service key = .ok (some service) := by
  obtain ⟨found, hfound, h⟩ := bind_eq_ok_iff.1 h
  cases found with
  | none => cases h
  | some obj =>
    obtain ⟨metadata, -, h⟩ := bind_eq_ok_iff.1 h
    obtain ⟨timestamp, -, h⟩ := bind_eq_ok_iff.1 h
    split at h
    · cases h
    obtain ⟨ofClass, -, h⟩ := bind_eq_ok_iff.1 h
    split at h
    · cases h
      exact hfound
    · cases h

theorem visits_publish (h : (publish i service lb).Visits s u) : u = s := by
  unfold publish at h
  split at h
  · rcases Program.visits_lift_bind.1 h with h | ⟨host, -, h⟩
    · exact h
    split at h
    · rcases Program.visits_lift_bind.1 h with h | ⟨name, -, h⟩
      · exact h
      exact (Program.visits_lift_bind.1 h).elim id fun ⟨_, _, h⟩ => h
    · exact h
  · exact h

theorem sync_eq (i : Inputs) (key : Value) : sync i key = (do
    match ← (wantedAt i key : Except Error (Option Value)) with
    | none =>
      deleteService i key
      return none
    | some service =>
      Program.notice (.subject service)
      let lb ← convergeService i service
      publish i service lb
      return some lb) := by
  unfold wantedAt
  rw [Program.liftM_bind, bind_assoc]
  rfl

theorem yields_sync_none (h : (sync i key).Yields s none t) :
    wantedAt i key = .ok none ∧ (deleteService i key).Yields s () t := by
  rw [sync_eq] at h
  obtain ⟨wanted, hwanted, h⟩ := Program.yields_lift_bind.1 h
  cases wanted with
  | none =>
    obtain ⟨_, t', hdelete, h⟩ := Program.yields_bind.1 h
    obtain ⟨-, rfl⟩ := Program.yields_pure.1 h
    exact ⟨hwanted, hdelete⟩
  | some service =>
    obtain ⟨_, t₁, -, h⟩ := Program.yields_bind.1 h
    obtain ⟨lb, t₂, -, h⟩ := Program.yields_bind.1 h
    obtain ⟨_, t₃, -, h⟩ := Program.yields_bind.1 h
    obtain ⟨hnone, -⟩ := Program.yields_pure.1 h
    cases hnone

theorem yields_sync_some (h : (sync i key).Yields s (some lb) t) :
    ∃ service, wantedAt i key = .ok (some service) ∧ (convergeService i service).Yields s lb t := by
  rw [sync_eq] at h
  obtain ⟨wanted, hwanted, h⟩ := Program.yields_lift_bind.1 h
  cases wanted with
  | none =>
    obtain ⟨_, t₁, -, h⟩ := Program.yields_bind.1 h
    obtain ⟨hsome, -⟩ := Program.yields_pure.1 h
    cases hsome
  | some service =>
    obtain ⟨_, t₁, h₁, h⟩ := Program.yields_bind.1 h
    rw [Program.visits_notice.1 h₁.visits] at h
    obtain ⟨lb', t₂, h₂, h⟩ := Program.yields_bind.1 h
    obtain ⟨_, t₃, h₃, h⟩ := Program.yields_bind.1 h
    obtain ⟨hlb, rfl⟩ := Program.yields_pure.1 h
    cases hlb
    rw [visits_publish h₃.visits]
    exact ⟨service, hwanted, h₂⟩

theorem visits_sync (h : (sync i key).Visits s u) :
    u = s ∨ (wantedAt i key = .ok none ∧ (deleteService i key).Visits s u) ∨
    ∃ service, wantedAt i key = .ok (some service) ∧ (convergeService i service).Visits s u := by
  rw [sync_eq] at h
  rcases Program.visits_lift_bind.1 h with rfl | ⟨wanted, hwanted, h⟩
  · exact .inl rfl
  cases wanted with
  | none =>
    rcases Program.visits_bind.1 h with h | ⟨_, t, ht, h⟩
    · exact .inr (.inl ⟨hwanted, h⟩)
    · rw [Program.visits_pure.1 h]
      exact .inr (.inl ⟨hwanted, ht.visits⟩)
  | some service =>
    rcases Program.visits_bind.1 h with h | ⟨_, t₁, ht₁, h⟩
    · exact .inl (Program.visits_notice.1 h)
    rw [Program.visits_notice.1 ht₁.visits] at h
    refine .inr (.inr ⟨service, hwanted, ?_⟩)
    rcases Program.visits_bind.1 h with h | ⟨lb, t₂, ht₂, h⟩
    · exact h
    rcases Program.visits_bind.1 h with h | ⟨_, t₃, ht₃, h⟩
    · rw [visits_publish h]
      exact ht₂.visits
    · rw [Program.visits_pure.1 h, visits_publish ht₃.visits]
      exact ht₂.visits

end

end Converge

end Balancer
