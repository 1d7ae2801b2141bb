import Balancer.Proofs.Cloud.Recorded
import Balancer.Proofs.Converge.Strict

/-!
# What converging tags takes

`convergeTags` writes the wanted tags that differ, then removes those that are neither wanted
nor managed by the cloud.

* `Conforms wanted old new` : the tags of a resource are as wanted, and of the old ones
  the reserved ones are left;
* `ends_convergeTags` : what is recorded; `Converts wanted arn s t changed log` : what it comes to;
* `Unharmed wanted old now` : what also a run that was cut off has left alone;
* `convergeTags_run` : an undisturbed run converges the tags, and a second one finds nothing to do. Behind
  any gate no run harms them.
-/

namespace Balancer

set_option autoImplicit false

namespace Converge

/-- The tags are the wanted ones, and of the old ones those that are not wanted and that the
cloud manages itself. -/
structure Conforms (wanted : Table String String) (old new : Labels) : Prop where
  met : ∀ n v, wanted.get? n = some v → new.get? (.text n) = some (.text v)
  rest : ∀ n, wanted.get? n = none →
    new.get? (.text n) = if Text.startsWith reservedStart n then old.get? (.text n) else none
  texts : ∀ k, new.contains k → ∃ n, k = .text n

/-- What converging the tags of a resource comes to, with whether it says that it changed
something and what it records. -/
structure Converts (wanted : Table String String) (arn : String) (s t : Resources) (changed : Bool)
    (log : List Record) : Prop where
  conforms : Conforms wanted (s.tagsOf (.text arn)) (t.tagsOf (.text arn))
  others : TagsAt (.text arn) s t
  changed_iff : changed = true ↔ ∃ k, (t.tagsOf (.text arn)).get? k ≠ (s.tagsOf (.text arn)).get? k
  recorded_iff : changed = true ↔ log ≠ []

/-- Tags that were as wanted are still there, and so are those that the cloud manages itself, with their
values or the wanted ones. None was removed before all wanted ones were there. -/
structure Unharmed (wanted : Table String String) (old now : Labels) : Prop where
  met : ∀ n v, wanted.get? n = some v → old.get? (.text n) = some (.text v) →
    now.get? (.text n) = some (.text v)
  reserved : ∀ n v, Text.startsWith reservedStart n = true → old.get? (.text n) = some v →
    now.get? (.text n) = some v ∨ ∃ w, wanted.get? n = some w ∧ now.get? (.text n) = some (.text w)
  removed_last : (∃ k, old.contains k ∧ ¬ now.contains k) → ∀ n v, wanted.get? n = some v →
    now.get? (.text n) = some (.text v)

section

variable {wanted : Table String String} {old new : Labels} {desired : Fields} {s t u : Resources}
  {arn : String} {n v : String}

/-! ## Tables of texts as tags -/

theorem isSome_of_mem_textFields {e : String × Value} (h : e ∈ textFields wanted) :
    (wanted.get? e.1).isSome := by
  obtain ⟨f, hf, rfl⟩ := List.mem_map.1 h
  rw [Table.get?_of_mem hf]
  rfl

theorem mem_textFields (h : wanted.get? n = some v) : (n, Value.text v) ∈ textFields wanted :=
  List.mem_map.2 ⟨(n, v), (Table.mem_entries_iff _ _ _).2 h, rfl⟩

theorem get?_of_meets (h : Meets new (textFields wanted)) (hv : wanted.get? n = some v) :
    new.get? (.text n) = some (.text v) := by
  have hmeets := Value.agrees_text.1 (h _ (mem_textFields hv))
  cases hget : new.get? (.text n) with
  | none =>
    rw [hget] at hmeets
    cases hmeets
  | some x =>
    rw [hget, Option.getD_some] at hmeets
    rw [hmeets]

/-- A key that is not wanted is the key of no wanted entry. -/
theorem ne_of_get?_eq_none (h : wanted.get? n = none) :
    ∀ e ∈ textFields wanted, (Key.text n == .text e.1) = false := by
  intro e he
  rw [Key.text_beq_text, beq_eq_false_iff_ne]
  rintro rfl
  have hsome := isSome_of_mem_textFields he
  rw [h] at hsome
  cases hsome

theorem text_mem_keys_iff : Key.text n ∈ old.keys ↔ old.contains (.text n) := by
  rw [Table.contains_iff]
  constructor
  · intro h
    obtain ⟨e, he, hk⟩ := List.mem_map.1 h
    exact ⟨e.2, hk ▸ Table.get?_of_mem he⟩
  · rintro ⟨x, hx⟩
    obtain ⟨k, hk, hmem⟩ := Entries.mem_of_find? hx
    rw [← Key.eq_text_of_beq hk]
    exact List.mem_map_of_mem hmem

theorem mem_removable_textFields : n ∈ removable old (textFields wanted) ↔
    old.contains (.text n) ∧ wanted.get? n = none ∧ Text.startsWith reservedStart n = false := by
  rw [mem_removable, mem_undesired, text_mem_keys_iff, and_assoc]
  refine and_congr .rfl (and_congr_left fun _ => ⟨fun h => ?_, ne_of_get?_eq_none⟩)
  cases hget : wanted.get? n with
  | none => rfl
  | some v =>
    have hne := h _ (mem_textFields hget)
    simp at hne

/-- Where all tags have texts for keys, so have those that are not wanted. -/
theorem removes_of_texts (h : ∀ k, old.contains k → ∃ n, k = .text n) (desired : Fields) :
    Removes old desired := by
  intro k hk
  obtain ⟨e, he, rfl⟩ := List.mem_map.1 (mem_undesired.1 hk).1
  exact h e.1 (Table.contains_iff.2 ⟨e.2, Table.get?_of_mem he⟩)

theorem Retagged.conforms (h : Retagged old new (textFields wanted)) : Conforms wanted old new where
  met _ _ hv := get?_of_meets h.1 hv
  rest n hnone := h.2 (.text n) (ne_of_get?_eq_none hnone)
  texts k hk := by
    by_cases hwanted : ∃ e ∈ textFields wanted, (k == .text e.1) = true
    · obtain ⟨e, -, hke⟩ := hwanted
      exact ⟨e.1, Key.beq_text_iff.1 hke⟩
    · have hget := h.2 k fun e he => Bool.eq_false_iff.2 fun hke => hwanted ⟨e, he, hke⟩
      obtain ⟨x, hx⟩ := Table.contains_iff.1 hk
      rw [hx] at hget
      cases k with
      | text n => exact ⟨n, rfl⟩
      | _ => cases hget

/-! ## Records -/

theorem not_isEmpty_iff {α : Type} (xs : List α) : ((!xs.isEmpty) = true) = (xs ≠ []) := by simp

theorem ends_addTags (s : Resources) (arn : String) (desired : Fields) :
    (Program.doIf (!(toModify (s.tagsOf (.text arn)) desired).isEmpty)
      (Program.answer (.addTags (.text arn) (.object (toModify (s.tagsOf (.text arn)) desired))))).Ends s ()
    (recordIf (toModify (s.tagsOf (.text arn)) desired ≠ [])
      ⟨"add_tags", [("arn", .text arn), ("tags", .object (toModify (s.tagsOf (.text arn)) desired))]⟩)
    (tagged s arn desired) := by
  rw [← not_isEmpty_iff]
  refine Program.ends_doIf (fun h => ?_) fun h => ?_
  · rw [tagged, if_neg (by simpa using h)]
    exact Program.ends_request (Resources.perform_addTags s arn _) rfl rfl
  · rw [tagged, if_pos (by simpa using h)]

theorem ends_removeTags {gone : List String} (s : Resources) (arn : String) (desired : Fields)
    (hgone : Value.sorted ((removable (s.tagsOf (.text arn)) desired).map .text) = .ok (gone.map .text))
    (hperm : gone.Perm (removable (s.tagsOf (.text arn)) desired)) :
    (Program.doIf (!((removable (s.tagsOf (.text arn)) desired).map Value.text).isEmpty)
      (Program.answer (.removeTags (.text arn)
        (.list ((removable (s.tagsOf (.text arn)) desired).map .text))))).Ends s ()
    (recordIf (gone ≠ []) ⟨"remove_tags", [("arn", .text arn), ("keys", textList gone)]⟩)
      (untagged s arn desired) := by
  have hrecord : (Request.removeTags (.text arn)
      (.list ((removable (s.tagsOf (.text arn)) desired).map .text))).record? =
      .ok (some ⟨"remove_tags", [("arn", .text arn), ("keys", textList gone)]⟩) := by
    simp [Request.record?, Request.record?.kept, sortedListOf, hgone, textList, bind, Except.bind,
      Functor.map, Except.map]
  have hempty : (!((removable (s.tagsOf (.text arn)) desired).map Value.text).isEmpty) = !gone.isEmpty := by
    rw [List.isEmpty_map, hperm.isEmpty_eq]
  rw [hempty, ← not_isEmpty_iff]
  refine Program.ends_doIf (fun h => ?_) fun h => ?_
  · have hne : removable (s.tagsOf (.text arn)) desired ≠ [] := by
      rw [← not_isEmpty_iff, ← hperm.isEmpty_eq]
      exact h
    rw [untagged, if_neg (by simpa using hne)]
    exact Program.ends_request (Resources.perform_removeTags s arn hne
      (get?_tags_of_removable hne)) rfl hrecord
  · rw [untagged, if_pos]
    rw [← hperm.isEmpty_eq]
    simpa using h

/-- What `convergeTags` records. -/
theorem ends_convergeTags (hd : Entries.Distinct desired) (hr : Removes (s.tagsOf (.text arn)) desired) :
    ∃ gone : List String, gone.Perm (removable (s.tagsOf (.text arn)) desired) ∧ gone.Pairwise (· ≤ ·) ∧
      (convergeTags (.text arn) (.object desired)).Ends s
        (!(toModify (s.tagsOf (.text arn)) desired).isEmpty || !gone.isEmpty)
        (recordIf (toModify (s.tagsOf (.text arn)) desired ≠ [])
          ⟨"add_tags", [("arn", .text arn), ("tags", .object (toModify (s.tagsOf (.text arn)) desired))]⟩ ++
        recordIf (gone ≠ []) ⟨"remove_tags", [("arn", .text arn), ("keys", textList gone)]⟩)
        (untagged (tagged s arn desired) arn desired) := by
  obtain ⟨gone, hgone, hperm, hsorted⟩ := Value.sorted_texts (removable (s.tagsOf (.text arn)) desired)
  refine ⟨gone, hperm, hsorted, ?_⟩
  have hempty := hperm.isEmpty_eq
  rw [← removable_tagged hd] at hgone hperm
  have hremove := ends_removeTags (tagged s arn desired) arn desired hgone hperm
  rw [removable_tagged hd] at hremove
  rw [convergeTags_eq, Program.ends_read_bind (Resources.perform_tags s arn) rfl]
  refine Program.ends_lift_bind.2 ⟨_, Value.entries_object _,
    Program.ends_lift_bind.2 ⟨_, hr.toRemove_eq, ?_⟩⟩
  refine (ends_addTags s arn desired).andThen ?_
  rw [← List.append_nil (recordIf (gone ≠ []) _)]
  exact hremove.andThen (Program.ends_pure.2 ⟨by rw [List.isEmpty_map, hempty], rfl, rfl⟩)

theorem recordIf_ne_nil_iff {c : Prop} {r : Record} : recordIf c r ≠ [] ↔ c := by
  by_cases h : c
  · rw [recordIf_of h]
    exact iff_of_true (List.cons_ne_nil _ _) h
  · rw [recordIf_of_not h]
    exact iff_of_false (not_not.2 rfl) h

/-! ## Undisturbed runs -/

/-- Where a wanted tag is written, it was not there. -/
theorem get?_ne_of_mem_toModify {e : String × Value} (h : e ∈ toModify old (textFields wanted)) :
    ∃ v, wanted.get? e.1 = some v ∧ old.get? (.text e.1) ≠ some (.text v) := by
  obtain ⟨he, hdiffers⟩ := mem_toModify.1 h
  obtain ⟨f, hf, rfl⟩ := List.mem_map.1 he
  refine ⟨f.2, Table.get?_of_mem hf, fun hget => ?_⟩
  rw [hget] at hdiffers
  simp at hdiffers

/-- Where nothing is to be written or removed, all stays as it is. -/
theorem eq_of_nothing_to_do (hmodify : toModify (s.tagsOf (.text arn)) desired = [])
    (hremove : removable (s.tagsOf (.text arn)) desired = []) :
    untagged (tagged s arn desired) arn desired = s := by
  have htagged : tagged s arn desired = s := by
    unfold tagged
    rw [if_pos (List.isEmpty_iff.2 hmodify)]
  rw [htagged]
  unfold untagged
  rw [if_pos (List.isEmpty_iff.2 hremove)]

/-- There is something to write or to remove just if the tags change. -/
theorem exists_changed_iff (h : Conforms wanted (s.tagsOf (.text arn))
      ((untagged (tagged s arn (textFields wanted)) arn (textFields wanted)).tagsOf (.text arn))) :
    (∃ k, ((untagged (tagged s arn (textFields wanted)) arn (textFields wanted)).tagsOf (.text arn)).get? k ≠
      (s.tagsOf (.text arn)).get? k) ↔
    toModify (s.tagsOf (.text arn)) (textFields wanted) ≠ [] ∨
      removable (s.tagsOf (.text arn)) (textFields wanted) ≠ [] := by
  constructor
  · rintro ⟨k, hk⟩
    by_contra hnothing
    obtain ⟨hmodify, hremove⟩ := not_or.1 hnothing
    exact hk (by rw [eq_of_nothing_to_do (not_not.1 hmodify) (not_not.1 hremove)])
  · rintro (hmodify | hremove)
    · obtain ⟨e, he⟩ := List.exists_mem_of_ne_nil _ hmodify
      obtain ⟨v, hv, hne⟩ := get?_ne_of_mem_toModify he
      refine ⟨.text e.1, ?_⟩
      rw [h.met _ _ hv]
      exact hne.symm
    · obtain ⟨n, hn⟩ := List.exists_mem_of_ne_nil _ hremove
      obtain ⟨hthere, hunwanted, hfree⟩ := mem_removable_textFields.1 hn
      obtain ⟨x, hx⟩ := Table.contains_iff.1 hthere
      refine ⟨.text n, ?_⟩
      rw [h.rest n hunwanted, if_neg (by simp [hfree]), hx]
      nofun

/-- `convergeTags` says that it changed something just if it did, and just if it recorded something. -/
theorem exists_converts (wanted : Table String String)
    (htexts : ∀ k, (s.tagsOf (.text arn)).contains k → ∃ n, k = .text n) :
    ∃ b log t, (convergeTags (.text arn) wanted.toTextObject).Ends s b log t ∧ Converts wanted arn s t b log ∧
      Settled (t.tagsOf (.text arn)) (textFields wanted) := by
  have hd := distinct_textFields wanted
  have hr : Removes (s.tagsOf (.text arn)) (textFields wanted) := removes_of_texts htexts _
  have hconforms := (retagged_untagged hd hr).conforms
  obtain ⟨gone, hperm, -, hends⟩ := ends_convergeTags hd hr
  have hchanged : (!(toModify (s.tagsOf (.text arn)) (textFields wanted)).isEmpty || !gone.isEmpty) = true ↔
      toModify (s.tagsOf (.text arn)) (textFields wanted) ≠ [] ∨ gone ≠ [] := by
    rw [Bool.or_eq_true, not_isEmpty_iff, not_isEmpty_iff]
  have hgone : gone ≠ [] ↔ removable (s.tagsOf (.text arn)) (textFields wanted) ≠ [] := by
    rw [← not_isEmpty_iff, ← not_isEmpty_iff, hperm.isEmpty_eq]
  refine ⟨_, _, _, hends, ⟨hconforms, (tagsAt_tagged s arn _).trans (tagsAt_untagged _ arn _),
    hchanged.trans ?_, hchanged.trans ?_⟩, settled_untagged hd hr⟩
  · rw [exists_changed_iff hconforms, hgone]
  · rw [ne_eq (_ ++ _), List.append_eq_nil_iff, not_and_or, ← ne_eq, ← ne_eq,
      recordIf_ne_nil_iff, recordIf_ne_nil_iff]

/-- Where the tags are as wanted there is nothing to do. -/
theorem ends_convergeTags_settled (wanted : Table String String)
    (h : Settled (s.tagsOf (.text arn)) (textFields wanted)) :
    (convergeTags (.text arn) wanted.toTextObject).Ends s false [] s := by
  obtain ⟨gone, hperm, -, hends⟩ := ends_convergeTags (distinct_textFields wanted) h.removes
  rw [h.removable_eq_nil] at hperm
  have hmodify := h.1.toModify_eq_nil (definite_textFields wanted)
  rw [eq_of_nothing_to_do hmodify h.removable_eq_nil, hmodify, List.perm_nil.1 hperm,
    recordIf_of_not (not_not.2 rfl), recordIf_of_not (not_not.2 rfl)] at hends
  exact hends

/-! ## Runs that are cut off -/

theorem Unharmed.refl (wanted : Table String String) (old : Labels) : Unharmed wanted old old where
  met _ _ _ h := h
  reserved _ _ _ h := .inl h
  removed_last := fun ⟨_, hthere, hgone⟩ => absurd hthere hgone

theorem unharmed_of_meets (h : Meets new (textFields wanted))
    (hreserved : ∀ n, wanted.get? n = none → Text.startsWith reservedStart n = true →
      new.get? (.text n) = old.get? (.text n)) :
    Unharmed wanted old new where
  met _ _ hv _ := get?_of_meets h hv
  reserved n v hres hold := by
    cases hget : wanted.get? n with
    | none => exact .inl ((hreserved n hget hres).trans hold)
    | some w => exact .inr ⟨w, rfl, get?_of_meets h hget⟩
  removed_last _ _ _ hv := get?_of_meets h hv

theorem get?_tagged_of_unwanted (h : wanted.get? n = none) :
    ((tagged s arn (textFields wanted)).tagsOf (.text arn)).get? (.text n) =
      (s.tagsOf (.text arn)).get? (.text n) := by
  have hnone : Entries.find? n (toModify (s.tagsOf (.text arn)) (textFields wanted)) = none := by
    rw [Entries.find?_eq_none_iff]
    intro e he
    rw [BEq.comm, ← Key.text_beq_text]
    exact ne_of_get?_eq_none h e (mem_toModify.1 he).1
  rw [tagsOf_tagged, Table.get?_update, get?_labels (distinct_toModify (distinct_textFields wanted)),
    hnone, Option.none_or]

/-- The states that a run visits are those before it, between writing and removing, and after it. -/
theorem unharmed_of_visits (h : (convergeTags (.text arn) wanted.toTextObject).Visits s u) :
    TagsAt (.text arn) s u ∧ Unharmed wanted (s.tagsOf (.text arn)) (u.tagsOf (.text arn)) := by
  have hd := distinct_textFields wanted
  refine ⟨always_convergeTags s arn hd u h, ?_⟩
  have hmeets : Meets ((tagged s arn (textFields wanted)).tagsOf (.text arn)) (textFields wanted) := by
    rw [tagsOf_tagged]
    exact Meets.update hd _
  rcases visits_convergeTags hd h with rfl | rfl | rfl
  · exact Unharmed.refl _ _
  · exact unharmed_of_meets hmeets fun n hn _ => get?_tagged_of_unwanted hn
  · refine unharmed_of_meets ?_ fun n hn hres => ?_
    · rw [tagsOf_untagged]
      exact hmeets.eraseAll_removable
    · rw [tagsOf_untagged, Table.get?_eraseAll, if_neg (not_any_removable hres), get?_tagged_of_unwanted hn]

end

/-- The tags of a resource become the wanted ones, and of the others only those are left that the cloud
manages itself. That is told, and recorded, just if it took a change, and a second time it takes none. No
other tags are changed. Wherever a run ends, since it returns, fails or is cut off, it has not harmed the tags
that were as wanted or that the cloud manages itself. -/
theorem convergeTags_run (wanted : Table String String) (arn : String) (m : Memory)
    (htexts : ∀ k, (m.resources.tagsOf (.text arn)).contains k → ∃ n, k = .text n) :
    (∃ b log t, (convergeTags (.text arn) wanted.toTextObject).run (Memory.cloud Gate.free) ((), m) =
        (.ok b, ((), ⟨t, m.records ++ log⟩)) ∧
      Converts wanted arn m.resources t b log ∧
      (convergeTags (.text arn) wanted.toTextObject).run (Memory.cloud Gate.free)
        ((), ⟨t, m.records ++ log⟩) =
        (.ok false, ((), ⟨t, m.records ++ log⟩))) ∧
    ∀ {γ : Type} (gate : Gate γ) (c c' : γ) (x : Except Error Bool) (m' : Memory),
      (convergeTags (.text arn) wanted.toTextObject).run (Memory.cloud gate) (c, m) = (x, (c', m')) →
      TagsAt (.text arn) m.resources m'.resources ∧
        Unharmed wanted (m.resources.tagsOf (.text arn)) (m'.resources.tagsOf (.text arn)) ∧
        ∀ b, x = .ok b → ∃ log, m'.records = m.records ++ log ∧
          Converts wanted arn m.resources m'.resources b log := by
  obtain ⟨b, log, t, hends, hconverts, hsettled⟩ := exists_converts wanted htexts
  refine ⟨⟨b, log, t, Program.run_free_eq_ok_iff.2 ⟨log, rfl, hends⟩, hconverts, ?_⟩, ?_⟩
  · exact Program.run_free_eq_ok_iff.2 ⟨[], (List.append_nil _).symm,
      ends_convergeTags_settled wanted hsettled⟩
  · intro γ gate c c' x m' hrun
    have hstrict := strict_convergeTags (.text arn) wanted.toTextObject
    have hvisits := hstrict.visits_run (g := gate) c m
    rw [hrun] at hvisits
    obtain ⟨hothers, hunharmed⟩ := unharmed_of_visits hvisits
    refine ⟨hothers, hunharmed, ?_⟩
    rintro b' rfl
    obtain ⟨rs, hrecords, hends'⟩ := hstrict.ends_run (g := gate) hrun
    obtain ⟨rfl, rfl, ht⟩ := hends.unique hends'
    exact ⟨rs, hrecords, ht ▸ hconverts⟩

/-- A cloud with a resource `web`, two of whose tags are not wanted. -/
def labelledWeb : Memory where
  resources := { tags := .ofList [(.text "web", .ofList
    [(.text "team", .text "a"), (.text "stage", .text "old"), (.text "stale", .text "x"),
      (.text "aws:zone", .text "z")])] }

def webLabels : Table String String := .ofList [("team", "a"), ("stage", "new"), ("owner", "b")]

theorem texts_labelledWeb (k : Key) (h : (labelledWeb.resources.tagsOf (.text "web")).contains k) :
    ∃ n, k = .text n := by
  obtain ⟨v, hv⟩ := Table.contains_iff.1 h
  obtain ⟨k', hk, hmem⟩ := Entries.mem_of_find? hv
  have hkeys : k' ∈ [Key.text "team", .text "stage", .text "stale", .text "aws:zone"] :=
    List.mem_map_of_mem (f := Prod.fst) hmem
  simp only [List.mem_cons, List.not_mem_nil, or_false] at hkeys
  rcases hkeys with rfl | rfl | rfl | rfl <;> exact ⟨_, Key.beq_text_iff.1 (BEq.symm hk)⟩

theorem convergeTags_run_web :
    (∀ k, (labelledWeb.resources.tagsOf (.text "web")).contains k → ∃ n, k = .text n) ∧
    (∃ log t, (convergeTags (.text "web") webLabels.toTextObject).run
        (Memory.cloud Gate.free) ((), labelledWeb) =
        (.ok true, ((), ⟨t, log⟩)) ∧ log ≠ [] ∧
      Conforms webLabels (labelledWeb.resources.tagsOf (.text "web")) (t.tagsOf (.text "web")) ∧
      (convergeTags (.text "web") webLabels.toTextObject).run (Memory.cloud Gate.free) ((), ⟨t, log⟩) =
        (.ok false, ((), ⟨t, log⟩))) := by
  refine ⟨texts_labelledWeb, ?_⟩
  obtain ⟨⟨b, log, t, hrun, hconverts, hagain⟩, -⟩ :=
    convergeTags_run webLabels "web" labelledWeb texts_labelledWeb
  have hb : b = true := by
    refine hconverts.changed_iff.2 ⟨.text "owner", ?_⟩
    rw [hconverts.conforms.met "owner" "b" rfl]
    nofun
  subst hb
  exact ⟨log, t, hrun, hconverts.recorded_iff.1 rfl, hconverts.conforms, hagain⟩

end Converge

end Balancer
