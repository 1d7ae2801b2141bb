import Balancer.Converge.Service
import Balancer.Proofs.Converge.LoadBalancer
import Balancer.Proofs.Converge.ServiceListeners
import Balancer.Proofs.Converge.TargetGroups

/-!
# Deleting what belongs to a Service

* `ownListeners a s` : the listeners of a load balancer; `deleteAllListeners` deletes them
  (`yields_deleteAllListeners`);
* `tornDown a wanted s` : what is left without a load balancer, its listeners and the target groups of some
  tags; `tearDown` leaves that (`yields_tearDown`), and `visits_tearDown` says where it can be cut off;
* `resumes_deleteService` : a delete can be done again from any state that it visits.
-/

namespace Balancer

set_option autoImplicit false

namespace Converge

open Cluster Resources

/-! ## The listeners of a load balancer -/

/-- The ARNs of the listeners of a load balancer. -/
def ownListeners (a : String) (s : Resources) : List Key :=
  (s.listenersOf (.text a)).map fun l => .text (describedArn (.object l))

section

variable {a : String} {k : Key} {gone : List Key} {s t u : Resources}

theorem mem_ownListeners (hs : s.OwnArns) :
    k ∈ ownListeners a s ↔ ∃ l, s.listeners.get? k = some l ∧ Fields.get l "LoadBalancerArn" = .text a := by
  unfold ownListeners
  rw [List.mem_map]
  constructor
  · rintro ⟨l, hl, rfl⟩
    obtain ⟨k, hk, hlb⟩ := mem_listenersOf.1 hl
    obtain ⟨arn, rfl, hown⟩ := hs.listener hk
    rw [(hasArn_of_get hown).2]
    exact ⟨l, hk, hlb⟩
  · rintro ⟨l, hk, hlb⟩
    obtain ⟨arn, rfl, hown⟩ := hs.listener hk
    exact ⟨l, mem_listenersOf.2 ⟨_, hk, hlb⟩, by rw [(hasArn_of_get hown).2]⟩

theorem deleteAllListeners_each (hs : s.OwnArns) :
    (deleteAllListeners (.text a)).Yields s () (s.dropListeners (ownListeners a s)) ∧
      ∀ u, (deleteAllListeners (.text a)).Visits s u →
        ∃ gone, gone ⊆ ownListeners a s ∧ u = s.dropListeners gone := by
  have hread := Program.does_answer (perform_listeners s (.text a))
  have harns : ∀ v ∈ (s.listenersOf (.text a)).map Value.object, HasArn v := by
    intro v hv
    obtain ⟨l, hl, rfl⟩ := List.mem_map.1 hv
    obtain ⟨k, hk, -⟩ := mem_listenersOf.1 hl
    obtain ⟨arn, -, hown⟩ := hs.listener hk
    exact (hasArn_of_get hown).1
  obtain ⟨hyields, hvisits⟩ := deleteEach_each (s := s) harns
  rw [List.map_map] at hyields hvisits
  refine ⟨hread.yields_bind_iff.2 hyields, fun u hu => ?_⟩
  rcases hread.visits_bind hu with rfl | hu
  · exact ⟨[], by simp, by rw [dropListeners_nil]⟩
  · exact hvisits u hu

theorem yields_deleteAllListeners (hs : s.OwnArns) :
    (deleteAllListeners (.text a)).Yields s () (s.dropListeners (ownListeners a s)) :=
  (deleteAllListeners_each hs).1

/-- The listeners that are left when some are deleted. -/
theorem mem_ownListeners_dropListeners (hs : s.OwnArns) :
    k ∈ ownListeners a (s.dropListeners gone) ↔ k ∈ ownListeners a s ∧ k ∉ gone := by
  rw [mem_ownListeners (hs.dropListeners gone), mem_ownListeners hs]
  simp only [dropListeners_listeners, Table.get?_eraseAll]
  have hany : ∀ k l, s.listeners.get? k = some l → (gone.any (k == ·) = true ↔ k ∈ gone) := by
    intro k l hk
    obtain ⟨arn, rfl, -⟩ := hs.listener hk
    rw [List.any_eq_true]
    refine ⟨?_, fun h => ⟨_, h, BEq.rfl⟩⟩
    rintro ⟨k', hk', hkk⟩
    exact Key.eq_text_of_beq (BEq.symm hkk) ▸ hk'
  constructor
  · rintro ⟨l, hl, hlb⟩
    split at hl
    · cases hl
    · rename_i hno
      exact ⟨⟨l, hl, hlb⟩, fun hk => hno ((hany k l hl).2 hk)⟩
  · rintro ⟨⟨l, hl, hlb⟩, hk⟩
    refine ⟨l, ?_, hlb⟩
    rw [if_neg fun h => hk ((hany k l hl).1 h), hl]

theorem ownListeners_dropListeners (hs : s.OwnArns) :
    ownListeners a (s.dropListeners (ownListeners a s)) = [] := by
  refine List.eq_nil_iff_forall_not_mem.2 fun k hk => ?_
  obtain ⟨hmem, hno⟩ := (mem_ownListeners_dropListeners hs).1 hk
  exact hno hmem

/-- Cut off anywhere, the listeners of a load balancer can be deleted again. -/
theorem resumes_deleteAllListeners (hs : s.OwnArns) : (deleteAllListeners (.text a)).Resumes id s := by
  intro _ t u ht hu
  obtain ⟨hyields, hvisits⟩ := deleteAllListeners_each (a := a) hs
  obtain ⟨-, rfl⟩ := hyields.unique ht
  obtain ⟨gone, hgone, rfl⟩ := hvisits u hu
  have hset : s.dropListeners (gone ++ ownListeners a (s.dropListeners gone)) =
      s.dropListeners (ownListeners a s) := by
    refine dropListeners_congr s fun k => ?_
    rw [List.mem_append, mem_ownListeners_dropListeners hs]
    by_cases hk : k ∈ gone
    · simp [hk, hgone hk]
    · simp [hk]
  have hagain := yields_deleteAllListeners (a := a) (hs.dropListeners gone)
  rw [dropListeners_dropListeners, hset] at hagain
  exact ⟨(), hagain, rfl⟩

/-- Where there are no listeners, none is deleted. -/
theorem rests_deleteAllListeners (hu : u.OwnArns) (h : ownListeners a u = []) :
    (deleteAllListeners (.text a)).Yields u () u := by
  have hyields := yields_deleteAllListeners (a := a) hu
  rwa [h, dropListeners_nil] at hyields

end

/-! ## Tearing down -/

/-- What is left without a load balancer, its listeners and the target groups that carry some tags. -/
def tornDown (a : String) (wanted : Fields) (s : Resources) : Resources :=
  ((s.dropListeners (ownListeners a s)).dropTgs (s.owned wanted)).dropLb a

/-- The steps of a delete while its load balancer is still there. -/
def strip (i : Inputs) (ns name : String) (arn : Value) : Program Unit := do
  deleteAllListeners arn
  deleteAllTargetGroups i (.text ns) (.text name)

/-- The steps of a delete after its load balancer was found. -/
def tearDown (i : Inputs) (ns name : String) (arn : Value) : Program Unit := do
  strip i ns name arn
  deleteLb arn

section

variable {i : Inputs} {ns name a : String} {wanted : Fields} {s t u : Resources}

theorem does_deleteLb (a : String) (s : Resources) : (deleteLb (.text a)).Does s () (s.dropLb a) :=
  (Program.does_answer (perform_deleteLb s a)).after (Program.does_info _ _ _)

theorem leftover_nil (s : Resources) (wanted : Fields) : leftover s wanted [] = s.owned wanted := by
  unfold leftover
  simp

theorem arns_selecting (selector : Value) : TargetGroups.arns { selector } = .ok [] := rfl

/-- What is deleted with the tags of a Service. -/
theorem yields_deleteAllTargetGroups (hs : s.OwnArns) :
    (deleteAllTargetGroups i (.text ns) (.text name)).Yields s () t ↔
      ∃ selector, i.identity.selector (.text ns) (.text name) = .ok selector ∧
        (∀ k ∈ s.owned selector.entries, checkUnused k.toValue s.listeners.values = .ok ()) ∧
        t = s.dropTgs (s.owned selector.entries) := by
  unfold deleteAllTargetGroups
  rw [Program.yields_lift_bind]
  refine exists_congr fun selector => and_congr_right fun _ => ?_
  rw [yields_collect (g := { selector := selector.toObject }) hs rfl (arns_selecting _), leftover_nil]

theorem visits_deleteAllTargetGroups (hs : s.OwnArns)
    (h : (deleteAllTargetGroups i (.text ns) (.text name)).Visits s u) :
    ∃ gone, u = s.dropTgs gone ∧
      ∀ k ∈ gone, ∃ selector, i.identity.selector (.text ns) (.text name) = .ok selector ∧
        k ∈ s.owned selector.entries := by
  rcases Program.visits_lift_bind.1 h with rfl | ⟨selector, hselector, h⟩
  · exact ⟨[], (dropTgs_nil u).symm, nofun⟩
  rcases visits_collect hs rfl h with rfl | ⟨inUse, gone, hinUse, hgone, rfl⟩
  · exact ⟨[], (dropTgs_nil u).symm, nofun⟩
  · exact ⟨gone, rfl, fun k hk => ⟨selector, hselector, List.mem_of_mem_filter (hgone hk)⟩⟩

theorem yields_strip (hs : s.OwnArns) : (strip i ns name (.text a)).Yields s () t ↔
    ∃ selector, i.identity.selector (.text ns) (.text name) = .ok selector ∧
      (∀ k ∈ s.owned selector.entries,
        checkUnused k.toValue (s.dropListeners (ownListeners a s)).listeners.values = .ok ()) ∧
      t = (s.dropListeners (ownListeners a s)).dropTgs (s.owned selector.entries) := by
  have hlisteners := yields_deleteAllListeners (a := a) hs
  have hwf := hs.dropListeners (ownListeners a s)
  constructor
  · intro h
    obtain ⟨_, t₁, h₁, h⟩ := Program.yields_bind.1 h
    obtain ⟨-, rfl⟩ := hlisteners.unique h₁
    exact (yields_deleteAllTargetGroups hwf).1 h
  · exact fun h => Program.yields_bind.2 ⟨(), _, hlisteners, (yields_deleteAllTargetGroups hwf).2 h⟩

/-- Where a delete can be cut off while its load balancer is still there: target groups of the Service are
deleted when no listener of the load balancer is left. -/
theorem visits_strip (hs : s.OwnArns) (h : (strip i ns name (.text a)).Visits s u) :
    ∃ gone gone', u = (s.dropListeners gone).dropTgs gone' ∧ gone ⊆ ownListeners a s ∧
      (gone' ≠ [] → gone = ownListeners a s) ∧
      ∀ k ∈ gone', ∃ selector, i.identity.selector (.text ns) (.text name) = .ok selector ∧
        k ∈ s.owned selector.entries := by
  rcases Program.visits_bind.1 h with h | ⟨_, t₁, h₁, h⟩
  · obtain ⟨gone, hgone, rfl⟩ := (deleteAllListeners_each hs).2 u h
    exact ⟨gone, [], (dropTgs_nil _).symm, hgone, fun hne => absurd rfl hne, nofun⟩
  · obtain ⟨-, rfl⟩ := (yields_deleteAllListeners hs).unique h₁
    obtain ⟨gone', rfl, howned⟩ := visits_deleteAllTargetGroups (hs.dropListeners _) h
    exact ⟨_, gone', rfl, List.Subset.refl _, fun _ => rfl, howned⟩

theorem resumes_strip (hs : s.OwnArns) : (strip i ns name (.text a)).Resumes id s := by
  have hwf := hs.dropListeners (ownListeners a s)
  have hlisteners := yields_deleteAllListeners (a := a) hs
  refine Program.Resumes.bind (resumes_deleteAllListeners hs) (fun _ _ _ => rfl) ?_ ?_
  · intro _ t₁ h₁
    obtain ⟨-, rfl⟩ := hlisteners.unique h₁
    exact Program.Resumes.lift_bind fun _ _ => resumes_collect hwf rfl
  · intro _ t₁ u h₁ hu
    obtain ⟨-, rfl⟩ := hlisteners.unique h₁
    obtain ⟨gone, rfl, -⟩ := visits_deleteAllTargetGroups hwf hu
    exact ⟨(), rests_deleteAllListeners (hwf.dropTgs gone) (ownListeners_dropListeners hs), rfl⟩

/-- What a delete does after its load balancer was found. -/
theorem yields_tearDown (hs : s.OwnArns) : (tearDown i ns name (.text a)).Yields s () t ↔
    ∃ selector, i.identity.selector (.text ns) (.text name) = .ok selector ∧
      (∀ k ∈ s.owned selector.entries,
        checkUnused k.toValue (s.dropListeners (ownListeners a s)).listeners.values = .ok ()) ∧
      t = tornDown a selector.entries s := by
  constructor
  · intro h
    obtain ⟨_, t₁, h₁, h⟩ := Program.yields_bind.1 h
    obtain ⟨selector, hsel, hunused, rfl⟩ := (yields_strip hs).1 h₁
    obtain ⟨-, rfl⟩ := (does_deleteLb _ _).1.unique h
    exact ⟨selector, hsel, hunused, rfl⟩
  · rintro ⟨selector, hsel, hunused, rfl⟩
    exact Program.yields_bind.2 ⟨(), _, (yields_strip hs).2 ⟨selector, hsel, hunused, rfl⟩,
      (does_deleteLb _ _).1⟩

/-- A delete leaves its load balancer to the end. -/
theorem visits_tearDown (h : (tearDown i ns name (.text a)).Visits s u) :
    (strip i ns name (.text a)).Visits s u ∨ ∃ t, (strip i ns name (.text a)).Yields s () t ∧
      u = t.dropLb a := by
  rcases Program.visits_bind.1 h with h | ⟨_, t, ht, h⟩
  · exact .inl h
  rcases (does_deleteLb a t).2 u h with rfl | rfl
  · exact .inl ht.visits
  · exact .inr ⟨t, ht, rfl⟩

end

/-! ## A delete -/

/-- The steps of a delete that goes by the name of a load balancer. -/
def dismantle (i : Inputs) (ns name lbName : String) : Program Unit := do
  match ← Program.answer (.loadBalancerNamed (.text lbName)) with
  | .null => return ()
  | live => tearDown i ns name (← live.item "LoadBalancerArn")

theorem deleteService_eq (i : Inputs) (key : Value) : deleteService i key = (do
    let (ns, name) ← splitKey key
    let lbName ← i.identity.nameLb (.text ns) (.text name)
    dismantle i ns name lbName) := by
  unfold deleteService
  refine congrArg _ (funext fun (ns, name) => ?_)
  unfold findLb dismantle
  dsimp only
  rw [bind_assoc]
  refine congrArg _ (funext fun lbName => congrArg _ (funext fun live => ?_))
  unfold tearDown strip
  cases live <;> simp only [bind_assoc]

section

variable {i : Inputs} {key : Value} {ns name lbName a : String} {fs : Fields} {s t u : Resources}

/-- Without a load balancer of the name there is nothing to do. -/
theorem does_dismantle
    (h : ∀ k fs, s.loadBalancers.get? k = some fs → Fields.get fs "LoadBalancerName" ≠ .text lbName) :
    (dismantle i ns name lbName).Does s () s := by
  have hread := Program.does_answer (perform_loadBalancerNamed s (.text lbName))
  rw [named_eq_null_iff.2 h] at hread
  exact hread.before (Program.does_pure () s)

theorem dismantle_cases (i : Inputs) (ns name : String) (hs : s.OwnArns) (hnames : s.UniqueLbNames)
    (hk : s.loadBalancers.get? (.text a) = some fs)
    (hn : Fields.get fs "LoadBalancerName" = .text lbName) :
    (∀ t, (dismantle i ns name lbName).Yields s () t ↔ (tearDown i ns name (.text a)).Yields s () t) ∧
      ∀ u, (dismantle i ns name lbName).Visits s u → (tearDown i ns name (.text a)).Visits s u := by
  have hread := Program.does_answer (perform_loadBalancerNamed s (.text lbName))
  rw [hnames.lbNamed hk hn] at hread
  have hitem : (Value.object fs).item "LoadBalancerArn" = .ok (.text a) := by
    obtain ⟨arn, harn, hown⟩ := hs.lb hk
    cases harn
    exact Fields.item_of_get_text hown
  have harn := Program.does_lift hitem s
  constructor
  · intro t
    unfold dismantle
    rw [hread.yields_bind_iff]
    exact harn.yields_bind_iff
  · intro u hu
    rcases hread.visits_bind hu with rfl | hu
    · exact Program.visits_self _ _
    rcases harn.visits_bind hu with rfl | hu
    · exact Program.visits_self _ _
    · exact hu

/-- There is no load balancer of a name, or there is one. -/
theorem lbNamed_cases (lbName : String) (hs : s.OwnArns) :
    (∀ k fs, s.loadBalancers.get? k = some fs → Fields.get fs "LoadBalancerName" ≠ .text lbName) ∨
      ∃ a fs, s.loadBalancers.get? (.text a) = some fs ∧ Fields.get fs "LoadBalancerName" = .text lbName := by
  by_cases h : ∃ k fs, s.loadBalancers.get? k = some fs ∧ Fields.get fs "LoadBalancerName" = .text lbName
  · obtain ⟨k, fs, hk, hn⟩ := h
    obtain ⟨a, rfl, -⟩ := hs.lb hk
    exact .inr ⟨a, fs, hk, hn⟩
  · exact .inl fun k fs hk hn => h ⟨k, fs, hk, hn⟩

theorem resumes_dismantle (hs : s.WellFormed) : (dismantle i ns name lbName).Resumes id s := by
  rcases lbNamed_cases lbName hs.ownArns with hnone | ⟨a, fs, hk, hn⟩
  · exact (does_dismantle hnone).resumes ⟨(), (does_dismantle hnone).1, rfl⟩
  intro _ t u ht hu
  refine ⟨(), ?_, rfl⟩
  obtain ⟨hyields, hvisits⟩ := dismantle_cases i ns name hs.ownArns hs.uniqueLbNames hk hn
  have ht := (hyields t).1 ht
  obtain ⟨_, t₁, h₁, h⟩ := Program.yields_bind.1 ht
  obtain ⟨-, rfl⟩ := (does_deleteLb a t₁).1.unique h
  rcases visits_tearDown (hvisits u hu) with hu | ⟨t', h', rfl⟩
  · -- the load balancer is still there, so that the same one is found again
    obtain ⟨_, hagain, -⟩ := resumes_strip hs.ownArns () t₁ u h₁ hu
    obtain ⟨gone, gone', rfl, -⟩ := visits_strip hs.ownArns hu
    have hwf := (hs.dropListeners gone).dropTgs gone'
    exact ((dismantle_cases i ns name hwf.ownArns hwf.uniqueLbNames hk hn).1 _).2
      (Program.yields_bind.2 ⟨(), t₁, hagain, (does_deleteLb a t₁).1⟩)
  · -- it is gone, and nothing is found
    obtain ⟨-, rfl⟩ := h₁.unique h'
    obtain ⟨gone, gone', rfl, -⟩ := visits_strip hs.ownArns h₁.visits
    exact (does_dismantle (not_named_dropLb ((hs.dropListeners gone).dropTgs gone').uniqueLbNames hk hn)).1

/-- Cut off anywhere, a delete can be done again. -/
theorem resumes_deleteService (hs : s.WellFormed) : (deleteService i key).Resumes id s := by
  rw [deleteService_eq]
  exact Program.Resumes.lift_bind fun _ _ => Program.Resumes.lift_bind fun _ _ => resumes_dismantle hs

end

end Converge

end Balancer
