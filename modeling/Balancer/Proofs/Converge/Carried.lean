import Balancer.Proofs.Converge.TargetGroups

/-!
# The tags that target groups keep

* `KeepsTags w s u` : the target groups of `u` carry the tags `w`, if those that were there in `s` did;
* `keepsTags_convergeTargetGroups` : so it is wherever the target groups of a Service are cut off, if `w` is
  among the tags that it asks for (`AsksTags`).
-/

namespace Balancer

set_option autoImplicit false

namespace Converge

open Cluster Routing Resources

/-- The target groups of `u` carry some tags, if those that were there in `s` carried them. -/
def KeepsTags (w : Fields) (s u : Resources) : Prop :=
  ∀ k tg, u.targetGroups.get? k = some tg → (∀ tg', s.targetGroups.get? k = some tg' → Meets (s.tagsOf k) w) →
    Meets (u.tagsOf k) w

/-- Some tags are among those of every target group that a Service asks for. -/
def AsksTags (i : Inputs) (service : Value) (settings : ServiceSettings) (w : Fields) : Prop :=
  ∀ specs, listenerSpecs service settings = .ok specs →
    ∀ spec ∈ specs, Actions.isUsed spec.backend.port = false →
    ∀ plan, planGroup i service settings spec.backend = .ok plan → w ⊆ plan.tags.entries

section

variable {w desired : Fields} {s t u : Resources} {arn : String}

theorem Meets.mono {current : Labels} (h : Meets current desired) (hw : w ⊆ desired) : Meets current w :=
  fun e he => h e (hw he)

theorem hasTags_of_meets {tags : Labels} (h : Meets tags w) (hw : Definite w) : hasTags w tags = true :=
  List.all_eq_true.2 fun e he => (h e he).same (hw e he)

namespace KeepsTags

theorem of_sameGroup (h : ∀ k tg, u.targetGroups.get? k = some tg → SameGroup k s u) : KeepsTags w s u := by
  intro k tg hk hbefore
  have hsame := h k tg hk
  rw [tagsOf, hsame.tags]
  exact hbefore tg (hsame.targetGroups ▸ hk)

theorem refl (w : Fields) (s : Resources) : KeepsTags w s s := of_sameGroup fun k _ _ => SameGroup.refl k s

/-- A target group that is there before and after is there in between, unless it was made anew. -/
theorem trans (h : KeepsTags w s t) (h' : KeepsTags w t u) : KeepsTags w s u :=
  fun k tg hk hbefore => h' k tg hk fun tg' hk' => h k tg' hk' hbefore

theorem of_onlyAt (h : OnlyAt (.text arn) s u)
    (htags : (∀ tg, s.targetGroups.get? (.text arn) = some tg → Meets (s.tagsOf (.text arn)) w) →
      Meets (u.tagsOf (.text arn)) w) : KeepsTags w s u := by
  intro k tg hk hbefore
  by_cases hkk : Key.text arn == k
  · obtain rfl := Key.eq_text_of_beq (BEq.symm hkk)
    exact htags hbefore
  · have hsame := SameGroup.of_onlyAt h (Bool.eq_false_iff.2 hkk)
    rw [tagsOf, hsame.tags]
    exact hbefore tg (hsame.targetGroups ▸ hk)

/-- Where the tags of a target group are as before. -/
theorem of_onlyAt_tags (h : OnlyAt (.text arn) s u) (htags : u.tags = s.tags)
    (hthere : ∃ tg, s.targetGroups.get? (.text arn) = some tg) : KeepsTags w s u := by
  obtain ⟨tg, hk⟩ := hthere
  refine of_onlyAt h fun hbefore => ?_
  rw [tagsOf, htags]
  exact hbefore tg hk

end KeepsTags

/-- Tags that are converged keep what is desired, and are never without what they had of it. -/
theorem keepsTags_convergeTags (hd : Entries.Distinct desired) (hw : w ⊆ desired)
    (hthere : ∃ tg, s.targetGroups.get? (.text arn) = some tg) :
    (convergeTags (.text arn) (.object desired)).Always (KeepsTags w s) s := by
  have htagged := OnlyAt.of_tagsAt (tagsAt_tagged s arn desired)
  have hmeets : Meets ((tagged s arn desired).tagsOf (.text arn)) desired := by
    rw [tagsOf_tagged]
    exact Meets.update hd _
  intro u hu
  rcases visits_convergeTags hd hu with rfl | rfl | rfl
  · exact KeepsTags.refl w u
  · exact KeepsTags.of_onlyAt htagged fun _ => hmeets.mono hw
  · refine KeepsTags.of_onlyAt (htagged.trans (OnlyAt.of_tagsAt (tagsAt_untagged _ arn desired))) fun _ => ?_
    rw [tagsOf_untagged]
    exact hmeets.eraseAll_removable.mono hw

/-- The tags that a resource is created with. -/
theorem meets_labels_sorted (tags : Table String Value) : Meets (labels tags.sorted) tags.entries := by
  have hperm : tags.sorted.Perm tags.entries := Entries.sorted_perm tags.entries
  have hd : Entries.Distinct tags.sorted := hperm.pairwise_iff (fun h => by rwa [BEq.comm]) |>.2 tags.distinct
  intro e he
  rw [get?_labels hd, Entries.find?_self_of_mem hd (hperm.mem_iff.2 he)]
  exact .inl rfl

end

section

variable {i : Inputs} {service : Value} {settings : ServiceSettings} {b : Backend}
  {w : Fields} {s t u : Resources} {arn : String} {there : Table BackendKey TargetGroup} {bs : List Backend}

theorem keepsTags_furnish {store : Store} {tags : Table String Value} (hs : s.WellFormed)
    (hw : w ⊆ tags.entries) (hthere : ∃ tg, s.targetGroups.get? (.text arn) = some tg) :
    (furnish store service settings b tags (.text arn)).Always (KeepsTags w s) s := by
  have htags := keepsTags_convergeTags tags.distinct hw hthere
  refine Program.Always.bind htags fun _ t ht u hu => ?_
  have hat := (always_convergeTags s arn tags.distinct).yields ht
  have hgroups : t.targetGroups = s.targetGroups := by
    obtain ⟨⟨l, rfl⟩, -⟩ := hat
    rfl
  obtain ⟨-, hrest, -, hsame⟩ := always_furnishRest (hat.wellFormed hs) arn u hu
  exact (htags.yields ht).trans (KeepsTags.of_onlyAt_tags hrest hsame (hgroups ▸ hthere))

/-- A new target group has the tags from the start. -/
theorem keepsTags_convergeTargetGroup (hs : s.WellFormed)
    (hw : ∀ plan, planGroup i service settings b = .ok plan → w ⊆ plan.tags.entries) :
    (convergeTargetGroup i service settings b).Always (KeepsTags w s) s := by
  intro u hu
  rw [convergeTargetGroup_eq] at hu
  rcases Program.visits_lift_bind.1 hu with rfl | ⟨plan, hplan, hu⟩
  · exact KeepsTags.refl w u
  rcases ensureTargetGroup_cases hs (isCheck_of_planGroup hplan) with
    hfail | ⟨arn, tg, t, hdoes, harn, ⟨tg', hk, -, -⟩, ht, hat, -, htags⟩
  · rw [(hfail.bind _).2 u hu]
    exact KeepsTags.refl w s
  have hst : KeepsTags w s t := by
    rcases htags with hnew | ⟨hsame, hthere⟩
    · refine KeepsTags.of_onlyAt hat fun _ => ?_
      rw [hnew]
      exact (meets_labels_sorted plan.tags).mono (hw plan hplan)
    · exact KeepsTags.of_onlyAt_tags hat hsame hthere
  rcases hdoes.visits_bind hu with rfl | hu
  · exact KeepsTags.refl w u
  rw [Value.item_object, Fields.item_of_get_text harn] at hu
  exact hst.trans (keepsTags_furnish ht (hw plan hplan) ⟨tg', hk⟩ u hu)

theorem keepsTags_convergeBackends (hs : s.WellFormed)
    (hw : ∀ b ∈ bs, Actions.isUsed b.port = false → ∀ plan, planGroup i service settings b = .ok plan →
      w ⊆ plan.tags.entries) :
    (convergeBackends i service settings there bs).Always (KeepsTags w s) s := by
  induction bs generalizing s there with
  | nil =>
    intro u hu
    rw [Program.visits_pure.1 hu]
    exact KeepsTags.refl w s
  | cons b bs ih =>
    have hw' : ∀ b' ∈ bs, Actions.isUsed b'.port = false →
        ∀ plan, planGroup i service settings b' = .ok plan →
        w ⊆ plan.tags.entries := fun b' hb' => hw b' (List.mem_cons_of_mem b hb')
    unfold convergeBackends
    split
    · exact ih hs hw'
    rename_i hb
    refine Program.Always.lift_bind (KeepsTags.refl w s) fun key _ => ?_
    split
    · exact ih hs hw'
    have hone := keepsTags_convergeTargetGroup hs (hw b List.mem_cons_self (by simpa using hb))
    refine Program.Always.bind hone fun g t ht u hu => ?_
    exact (hone.yields ht).trans (ih (visits_convergeTargetGroup hs ht.visits).1 hw' u hu)

theorem keepsTags_convergeTargetGroups (hs : s.WellFormed) (hw : AsksTags i service settings w) :
    (convergeTargetGroups i service settings).Always (KeepsTags w s) s := by
  refine Program.Always.lift_bind (KeepsTags.refl w s) fun n _ => ?_
  refine Program.Always.lift_bind (KeepsTags.refl w s) fun specs hspecs => ?_
  have hall : (convergeBackends i service settings ∅ (specs.map (·.backend))).Always (KeepsTags w s) s := by
    refine keepsTags_convergeBackends hs fun b hb hused => ?_
    obtain ⟨spec, hspec, rfl⟩ := List.mem_map.1 hb
    exact hw specs hspecs spec hspec hused
  refine Program.Always.bind hall fun groups t ht => ?_
  refine Program.Always.lift_bind (hall.yields ht) fun selector _ u hu => ?_
  rw [Program.visits_pure.1 hu]
  exact hall.yields ht

end

end Converge

end Balancer
