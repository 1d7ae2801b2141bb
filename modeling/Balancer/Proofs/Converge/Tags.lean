import Balancer.Proofs.Cloud.Requests

/-!
# Converging tags and attributes

* `Meets current desired` : the labels have every desired entry; `Meets.update` : they do once those that
  differ are written, and then writing them again changes nothing (`Meets.update_eq`);
* `Settled current desired` : besides, there is nothing to remove;
* `tagged`, `untagged` : what `convergeTags` leaves; `yields_convergeTags`, `visits_convergeTags`,
  `rests_convergeTags` : how it ends, which states it visits and where it rests, and so for
  `convergeLbAttributes` and `convergeTgAttributes`.
-/

namespace Balancer

set_option autoImplicit false

/-! ## Labels of fields -/

section

variable {fs : Fields}

theorem entries_labels (hd : Entries.Distinct fs) : (labels fs).entries = fs.map fun f => (.text f.1, f.2) :=
  Table.entries_ofList (List.pairwise_map.2 (hd.imp fun h => by simpa using h))

theorem get?_labels (hd : Entries.Distinct fs) (k : String) :
    (labels fs).get? (.text k) = Entries.find? k fs := by
  rw [Table.get?, entries_labels hd]
  induction fs with
  | nil => rfl
  | cons f fs ih =>
    simp only [List.map_cons, Entries.find?, Key.text_beq_text, ih (List.pairwise_cons.1 hd).2]

end

namespace Converge

/-! ## Entries that are met -/

/-- Labels have every desired entry. -/
def Meets (current : Labels) (desired : Fields) : Prop :=
  ∀ e ∈ desired, ((current.get? (.text e.1)).getD .null).Agrees e.2

/-- The desired entries equal themselves. -/
def Definite (desired : Fields) : Prop := ∀ e ∈ desired, e.2.same e.2 = true

section

variable {current : Labels} {desired : Fields}

theorem mem_toModify {e : String × Value} :
    e ∈ toModify current desired ↔
      e ∈ desired ∧ ((current.get? (.text e.1)).getD .null).same e.2 = false := by
  simp [toModify, List.mem_filter]

theorem distinct_toModify (hd : Entries.Distinct desired) : Entries.Distinct (toModify current desired) :=
  List.Pairwise.filter _ hd

theorem Meets.update (hd : Entries.Distinct desired) (current : Labels) :
    Meets (current.update (labels (toModify current desired))) desired := by
  intro e he
  rw [Table.get?_update, get?_labels (distinct_toModify hd)]
  by_cases hs : ((current.get? (.text e.1)).getD .null).same e.2
  · have hnone : Entries.find? e.1 (toModify current desired) = none := by
      rw [Entries.find?_eq_none_iff]
      intro d hm
      rw [Bool.eq_false_iff]
      intro hk
      obtain ⟨hm, hds⟩ := mem_toModify.1 hm
      have h := Entries.find?_of_mem hd hk hm
      rw [Entries.find?_self_of_mem hd he, Option.some.injEq] at h
      rw [← h, eq_of_beq hk, hs] at hds
      cases hds
    rw [hnone, Option.none_or]
    exact .inr hs
  · have hm : e ∈ toModify current desired := mem_toModify.2 ⟨he, Bool.eq_false_iff.2 hs⟩
    rw [Entries.find?_self_of_mem (distinct_toModify hd) hm]
    exact .inl rfl

/-- An entry that is met and still written is there as it is. -/
theorem Meets.get?_of_mem_toModify (h : Meets current desired) {e : String × Value}
    (he : e ∈ toModify current desired) :
    current.get? (.text e.1) = some e.2 := by
  obtain ⟨hm, hs⟩ := mem_toModify.1 he
  rcases h e hm with ha | ha
  · cases hc : current.get? (.text e.1) with
    | none =>
      rw [hc, Option.getD_none] at ha
      rw [hc, Option.getD_none, ← ha] at hs
      cases hs
    | some v =>
      rw [hc, Option.getD_some] at ha
      rw [ha]
  · rw [hs] at ha
    cases ha

theorem Meets.update_eq (hd : Entries.Distinct desired) (h : Meets current desired) :
    current.update (labels (toModify current desired)) = current := by
  refine Table.update_of_get? fun e he => ?_
  rw [entries_labels (distinct_toModify hd)] at he
  obtain ⟨f, hf, rfl⟩ := List.mem_map.1 he
  exact h.get?_of_mem_toModify hf

/-- Labels that are as desired and would be written all the same are there. -/
theorem Meets.get?_of_toModify {t : Table Key Labels} {k : Key} (h : Meets ((t.get? k).getD ∅) desired)
    (hne : toModify ((t.get? k).getD ∅) desired ≠ []) : t.get? k = some ((t.get? k).getD ∅) := by
  obtain ⟨e, he⟩ := List.exists_mem_of_ne_nil _ hne
  exact Table.get?_of_getD (h.get?_of_mem_toModify he)

theorem Meets.toModify_eq_nil (h : Meets current desired) (hq : Definite desired) :
    toModify current desired = [] := by
  rw [List.eq_nil_iff_forall_not_mem]
  intro e he
  obtain ⟨hm, hs⟩ := mem_toModify.1 he
  rw [(h e hm).same (hq e hm)] at hs
  cases hs

end

/-! ## Tags that are removed -/

/-- A key that is not reserved, as a text. -/
def unreserved? : Key → Option String
  | .text n => if Text.startsWith reservedStart n then none else some n
  | _ => none

/-- Whether a value is the text of a key that is not reserved. -/
def isUnreservedText : Value → Bool
  | .text n => !Text.startsWith reservedStart n
  | _ => false

/-- The keys of undesired tags that are not reserved. -/
def removable (current : Labels) (desired : Fields) : List String :=
  (undesired current desired).filterMap unreserved?

/-- All undesired tags have texts for keys. -/
def Removes (current : Labels) (desired : Fields) : Prop := ∀ k ∈ undesired current desired, ∃ n, k = .text n

/-- The labels have every desired entry, and otherwise only reserved ones. -/
def Settled (current : Labels) (desired : Fields) : Prop :=
  Meets current desired ∧ ∀ k ∈ undesired current desired, ∃ n, k = .text n ∧
    Text.startsWith reservedStart n = true

section

variable {current : Labels} {desired : Fields}

theorem Removes.toRemove_eq (h : Removes current desired) :
    toRemove current desired = .ok ((removable current desired).map .text) := by
  have hfilter : ∀ ks : List Key, (∀ k ∈ ks, ∃ n, k = .text n) →
      (ks.map Key.toValue).filterM (fun k => do return !(← k.startsWith reservedStart)) =
        .ok ((ks.filterMap unreserved?).map .text) := by
    intro ks hks
    rw [filterM_ok (q := isUnreservedText)]
    · congr 1
      induction ks with
      | nil => rfl
      | cons k ks ih =>
        obtain ⟨⟨n, rfl⟩, hks'⟩ := List.forall_mem_cons.1 hks
        rw [List.map_cons, List.filter_cons, ih hks', List.filterMap_cons]
        cases hn : Text.startsWith reservedStart n <;> simp [Key.toValue, isUnreservedText, unreserved?, hn]
    · intro v hv
      obtain ⟨k, hk, rfl⟩ := List.mem_map.1 hv
      obtain ⟨n, rfl⟩ := hks k hk
      rfl
  exact hfilter _ h

theorem removes_of_toRemove {vs : List Value} (h : toRemove current desired = .ok vs) :
    Removes current desired := by
  intro k hk
  obtain ⟨b, hb⟩ := isOk_of_filterM h k.toValue (List.mem_map_of_mem hk)
  cases k with
  | text n => exact ⟨n, rfl⟩
  | _ => simp [Key.toValue, Value.startsWith, Value.textFor, Mismatch.error, bind, Except.bind] at hb

theorem mem_undesired {k : Key} :
    k ∈ undesired current desired ↔ k ∈ current.keys ∧ ∀ e ∈ desired, (k == .text e.1) = false := by
  simp [undesired, List.mem_filter]

theorem mem_removable {n : String} :
    n ∈ removable current desired ↔ .text n ∈ undesired current desired ∧
      Text.startsWith reservedStart n = false := by
  unfold removable
  rw [List.mem_filterMap]
  constructor
  · rintro ⟨k, hk, hn⟩
    cases k with
    | text m =>
      rw [unreserved?, ite_eq_iff] at hn
      rcases hn with ⟨-, hn⟩ | ⟨hm, hn⟩
      · cases hn
      · cases hn
        exact ⟨hk, Bool.eq_false_iff.2 hm⟩
    | _ => cases hn
  · rintro ⟨hk, hn⟩
    exact ⟨.text n, hk, by simp [unreserved?, hn]⟩

/-- No reserved tag is among those that can be removed. -/
theorem not_any_removable {n : String} (hres : Text.startsWith reservedStart n = true) :
    ¬ ((removable current desired).map Key.text).any (Key.text n == ·) = true := by
  intro hany
  obtain ⟨x, hx, hnx⟩ := List.any_eq_true.1 hany
  obtain ⟨m, hm, rfl⟩ := List.mem_map.1 hx
  rw [Key.text_beq_text, beq_iff_eq] at hnx
  rw [hnx, (mem_removable.1 hm).2] at hres
  cases hres

/-- Desired entries that are written are not undesired. -/
theorem undesired_update (u : Labels) (hu : ∀ e ∈ u.entries, ∃ d ∈ desired, e.1 = .text d.1) :
    undesired (current.update u) desired = undesired current desired := by
  have hput : ∀ (es acc : List (Key × Value)), (∀ e ∈ es, ∃ d ∈ desired, e.1 = .text d.1) →
      ((es.foldl (fun acc e => Entries.put e.1 e.2 acc) acc).map (·.1)).filter
        (fun k => !desired.any fun e => k == .text e.1) =
      (acc.map (·.1)).filter fun k => !desired.any fun e => k == .text e.1 := by
    intro es
    induction es with
    | nil => exact fun acc _ => rfl
    | cons e es ih =>
      intro acc hes
      obtain ⟨⟨d, hd, hk⟩, hes⟩ := List.forall_mem_cons.1 hes
      rw [List.foldl_cons, ih _ hes]
      have hany : (desired.any fun d => e.1 == .text d.1) = true :=
        List.any_eq_true.2 ⟨d, hd, by rw [hk]; exact BEq.rfl⟩
      cases hf : Entries.find? e.1 acc with
      | none =>
        rw [Entries.put_of_find?_eq_none hf]
        simp [List.filter_append, hany]
      | some x => rw [Entries.keys_put_of_find? hf]
  exact hput u.entries current.entries hu

theorem undesired_toModify (hd : Entries.Distinct desired) :
    undesired (current.update (labels (toModify current desired))) desired = undesired current desired := by
  refine undesired_update _ fun e he => ?_
  rw [entries_labels (distinct_toModify hd)] at he
  obtain ⟨f, hf, rfl⟩ := List.mem_map.1 he
  exact ⟨f, (mem_toModify.1 hf).1, rfl⟩

/-- The tags that are removed are not among the desired ones. -/
theorem Meets.eraseAll_removable (h : Meets current desired) :
    Meets (current.eraseAll ((removable current desired).map .text)) desired := by
  intro e he
  rw [Table.get?_eraseAll, if_neg]
  · exact h e he
  · intro hany
    obtain ⟨x, hx, hkx⟩ := List.any_eq_true.1 hany
    obtain ⟨n, hn, rfl⟩ := List.mem_map.1 hx
    have := (mem_undesired.1 (mem_removable.1 hn).1).2 e he
    rw [← Key.eq_text_of_beq hkx] at this
    exact absurd this (by simp)

/-- Once all that is to go is gone, the labels are settled if they had what is desired. -/
theorem Meets.settled (h : Meets current desired) (hr : Removes current desired) :
    Settled (current.eraseAll ((removable current desired).map .text)) desired := by
  constructor
  · exact h.eraseAll_removable
  · intro k hk
    obtain ⟨hkeys, hdes⟩ := mem_undesired.1 hk
    obtain ⟨e, he, rfl⟩ := List.mem_map.1 hkeys
    obtain ⟨he, hany⟩ := List.mem_filter.1 he
    have hund : e.1 ∈ undesired current desired := mem_undesired.2 ⟨List.mem_map_of_mem he, hdes⟩
    obtain ⟨n, hn⟩ := hr e.1 hund
    refine ⟨n, hn, ?_⟩
    by_contra hres
    have hmem : n ∈ removable current desired := mem_removable.2 ⟨hn ▸ hund, Bool.eq_false_iff.2 hres⟩
    rw [Bool.not_eq_true', List.any_eq_false] at hany
    exact hany (.text n) (List.mem_map_of_mem hmem) (by rw [hn]; exact BEq.rfl)

theorem Settled.removes (h : Settled current desired) : Removes current desired := fun k hk =>
  (h.2 k hk).imp fun _ hn => hn.1

theorem Settled.removable_eq_nil (h : Settled current desired) : removable current desired = [] := by
  rw [List.eq_nil_iff_forall_not_mem]
  intro n hn
  obtain ⟨hk, hres⟩ := mem_removable.1 hn
  obtain ⟨m, hm, hres'⟩ := h.2 _ hk
  cases hm
  rw [hres] at hres'
  cases hres'

end

/-! ## Converging tags -/

/-- Desired tags written where they differ. -/
def tagged (s : Resources) (arn : String) (desired : Fields) : Resources :=
  if (toModify (s.tagsOf (.text arn)) desired).isEmpty then s
  else s.putTags (.text arn) ((s.tagsOf (.text arn)).update
    (labels (toModify (s.tagsOf (.text arn)) desired)))

/-- Undesired tags removed. -/
def untagged (s : Resources) (arn : String) (desired : Fields) : Resources :=
  if (removable (s.tagsOf (.text arn)) desired).isEmpty then s
  else s.putTags (.text arn) ((s.tagsOf (.text arn)).eraseAll
    ((removable (s.tagsOf (.text arn)) desired).map .text))

section

variable {s u t : Resources} {arn : String} {desired : Fields}

theorem tagsOf_putTags (s : Resources) (k : Key) (l : Labels) : (s.putTags k l).tagsOf k = l := by
  simp [Resources.tagsOf]

theorem tagsOf_tagged (s : Resources) (arn : String) (desired : Fields) :
    (tagged s arn desired).tagsOf (.text arn) =
      (s.tagsOf (.text arn)).update (labels (toModify (s.tagsOf (.text arn)) desired)) := by
  unfold tagged
  split
  · rename_i h
    rw [List.isEmpty_iff.1 h]
    rfl
  · rw [tagsOf_putTags]

theorem tagsOf_untagged (s : Resources) (arn : String) (desired : Fields) :
    (untagged s arn desired).tagsOf (.text arn) =
      (s.tagsOf (.text arn)).eraseAll ((removable (s.tagsOf (.text arn)) desired).map .text) := by
  unfold untagged
  split
  · rename_i h
    rw [List.isEmpty_iff.1 h]
    exact (Table.eraseAll_nil _).symm
  · rw [tagsOf_putTags]

/-- A resource with tags that can be removed has tags. -/
theorem get?_tags_of_removable (hne : removable (s.tagsOf (.text arn)) desired ≠ []) :
    s.tags.get? (.text arn) = some (s.tagsOf (.text arn)) := by
  obtain ⟨n, hn⟩ := List.exists_mem_of_ne_nil _ hne
  obtain ⟨e, he, hk⟩ := List.mem_map.1 (mem_undesired.1 (mem_removable.1 hn).1).1
  exact Table.get?_of_getD (hk ▸ Table.get?_of_mem he)

theorem tagged_of_meets (hd : Entries.Distinct desired) (h : Meets (s.tagsOf (.text arn)) desired) :
    tagged s arn desired = s := by
  unfold tagged
  split
  · rfl
  · rename_i hne
    rw [h.update_eq hd]
    exact Resources.putTags_of_get? (h.get?_of_toModify (mt List.isEmpty_iff.2 hne))

theorem removes_tagged (hd : Entries.Distinct desired) :
    Removes ((tagged s arn desired).tagsOf (.text arn)) desired ↔ Removes (s.tagsOf (.text arn)) desired := by
  unfold Removes
  rw [tagsOf_tagged, undesired_toModify hd]

theorem removable_tagged (hd : Entries.Distinct desired) :
    removable ((tagged s arn desired).tagsOf (.text arn)) desired =
      removable (s.tagsOf (.text arn)) desired := by
  unfold removable
  rw [tagsOf_tagged, undesired_toModify hd]

/-- What is left has the desired tags and no other unreserved ones. -/
theorem settled_untagged (hd : Entries.Distinct desired) (hr : Removes (s.tagsOf (.text arn)) desired) :
    Settled ((untagged (tagged s arn desired) arn desired).tagsOf (.text arn)) desired := by
  rw [tagsOf_untagged]
  refine Meets.settled ?_ ((removes_tagged hd).2 hr)
  rw [tagsOf_tagged]
  exact Meets.update hd _

theorem convergeTags_eq (arn desired : Value) : convergeTags arn desired = do
    let current ← Program.answer (.tags arn)
    let desired ← (desired.entries : Except Error Fields)
    let remove ← (toRemove current desired : Except Error (List Value))
    Program.doIf (!(toModify current desired).isEmpty)
      (Program.answer (.addTags arn (.object (toModify current desired))))
    Program.doIf (!remove.isEmpty) (Program.answer (.removeTags arn (.list remove)))
    return !(toModify current desired).isEmpty || !remove.isEmpty := by
  simp only [Program.doIf_bind]
  rfl

theorem does_addTags (s : Resources) (arn : String) (desired : Fields) :
    (Program.doIf (!(toModify (s.tagsOf (.text arn)) desired).isEmpty)
      (Program.answer (.addTags (.text arn) (.object (toModify (s.tagsOf (.text arn)) desired))))).Does s ()
    (tagged s arn desired) := by
  refine Program.does_doIf (fun h => ?_) fun h => ?_
  · rw [tagged, if_neg (by simpa using h)]
    exact Program.does_answer (Resources.perform_addTags s arn _)
  · rw [tagged, if_pos (by simpa using h)]

theorem does_removeTags (s : Resources) (arn : String) (desired : Fields) :
    (Program.doIf (!((removable (s.tagsOf (.text arn)) desired).map Value.text).isEmpty)
      (Program.answer (.removeTags (.text arn)
        (.list ((removable (s.tagsOf (.text arn)) desired).map .text))))).Does s ()
    (untagged s arn desired) := by
  rw [List.isEmpty_map]
  refine Program.does_doIf (fun h => ?_) fun h => ?_
  · rw [untagged, if_neg (by simpa using h)]
    have hne : removable (s.tagsOf (.text arn)) desired ≠ [] := by simpa using h
    exact Program.does_answer (Resources.perform_removeTags s arn hne (get?_tags_of_removable hne))
  · rw [untagged, if_pos (by simpa using h)]

theorem yields_convergeTags {b : Bool} (hd : Entries.Distinct desired) :
    (convergeTags (.text arn) (.object desired)).Yields s b t ↔
      Removes (s.tagsOf (.text arn)) desired ∧ t = untagged (tagged s arn desired) arn desired ∧
        b = (!(toModify (s.tagsOf (.text arn)) desired).isEmpty ||
          !(removable (s.tagsOf (.text arn)) desired).isEmpty) := by
  simp only [convergeTags_eq, (Program.does_answer (Resources.perform_tags s arn)).yields_bind_iff,
    Program.yields_lift_bind, Value.entries_object, Except.ok.injEq, exists_eq_left']
  constructor
  · rintro ⟨remove, hremove, h⟩
    have hr := removes_of_toRemove hremove
    rw [hr.toRemove_eq] at hremove
    cases hremove
    rw [(does_addTags s arn desired).yields_bind_iff, ← removable_tagged hd,
      (does_removeTags _ arn desired).yields_bind_iff, removable_tagged hd, Program.yields_pure,
      List.isEmpty_map] at h
    exact ⟨hr, h.2, h.1⟩
  · rintro ⟨hr, rfl, rfl⟩
    refine ⟨_, hr.toRemove_eq, ?_⟩
    rw [(does_addTags s arn desired).yields_bind_iff, ← removable_tagged hd,
      (does_removeTags _ arn desired).yields_bind_iff, removable_tagged hd,
      Program.yields_pure, List.isEmpty_map]
    exact ⟨rfl, rfl⟩

theorem visits_convergeTags (hd : Entries.Distinct desired)
    (h : (convergeTags (.text arn) (.object desired)).Visits s u) :
    u = s ∨ u = tagged s arn desired ∨ u = untagged (tagged s arn desired) arn desired := by
  rw [convergeTags_eq] at h
  rcases (Program.does_answer (Resources.perform_tags s arn)).visits_bind h with rfl | h
  · exact .inl rfl
  rcases Program.visits_lift_bind.1 h with rfl | ⟨_, hdes, h⟩
  · exact .inl rfl
  cases hdes
  rcases Program.visits_lift_bind.1 h with rfl | ⟨remove, hremove, h⟩
  · exact .inl rfl
  have hr := removes_of_toRemove hremove
  rw [hr.toRemove_eq] at hremove
  cases hremove
  rcases (does_addTags s arn desired).visits_bind h with rfl | h
  · exact .inl rfl
  rw [← removable_tagged hd] at h
  exact .inr ((does_removeTags _ arn desired).visits_bind h)

theorem rests_convergeTags (hd : Entries.Distinct desired) (h : Settled (u.tagsOf (.text arn)) desired) :
    (convergeTags (.text arn) (.object desired)).Rests (Definite desired) (fun _ => ()) u () := by
  rw [convergeTags_eq]
  refine Program.Rests.bind (v := id) (Program.Rests.of_ends (a := u.tagsOf (.text arn)) ?_) ?_
  · exact Program.ends_answer.2 ⟨Resources.perform_tags u arn, (Resources.recorded_of_reads rfl).symm⟩
  rintro _ rfl
  refine Program.Rests.lift_bind (Value.entries_object desired)
    (Program.Rests.lift_bind h.removes.toRemove_eq ?_)
  refine Program.Rests.bind (v := id) (Program.rests_doIf (fun hb => ?_) fun hq => ?_) fun _ _ => ?_
  · have hstep : (Program.doIf true _).Does u () _ := hb ▸ does_addTags u arn desired
    rwa [tagged_of_meets hd h.1] at hstep
  · rw [id, h.1.toModify_eq_nil hq]
    rfl
  · rw [id, h.removable_eq_nil]
    exact Program.Rests.of_ends (Program.ends_pure.2 ⟨rfl, rfl, rfl⟩)

end

/-! ## Tags of one ARN -/

/-- Only the tags of one ARN differ. -/
def TagsAt (k : Key) (s u : Resources) : Prop :=
  (∃ t, u = { s with tags := t }) ∧ ∀ k', (k == k') = false → u.tags.get? k' = s.tags.get? k'

section

variable {k : Key} {s t u : Resources} {arn : String} {desired : Fields}

theorem TagsAt.refl (k : Key) (s : Resources) : TagsAt k s s := ⟨⟨s.tags, rfl⟩, fun _ _ => rfl⟩

theorem TagsAt.trans (h : TagsAt k s t) (h' : TagsAt k t u) : TagsAt k s u := by
  obtain ⟨⟨l, rfl⟩, hl⟩ := h
  obtain ⟨⟨l', rfl⟩, hl'⟩ := h'
  exact ⟨⟨l', rfl⟩, fun k' hk => (hl' k' hk).trans (hl k' hk)⟩

theorem TagsAt.putTags (k : Key) (s : Resources) (l : Labels) : TagsAt k s (s.putTags k l) :=
  ⟨⟨_, rfl⟩, fun _ hk => Table.get?_insert_of_ne _ _ hk⟩

theorem TagsAt.wellFormed (h : TagsAt k s u) (hs : s.WellFormed) : u.WellFormed := by
  obtain ⟨⟨l, rfl⟩, -⟩ := h
  exact hs.congr rfl rfl rfl rfl rfl

theorem tagsAt_tagged (s : Resources) (arn : String) (desired : Fields) :
    TagsAt (.text arn) s (tagged s arn desired) := by
  unfold tagged
  split
  · exact TagsAt.refl _ s
  · exact TagsAt.putTags _ s _

theorem tagsAt_untagged (s : Resources) (arn : String) (desired : Fields) :
    TagsAt (.text arn) s (untagged s arn desired) := by
  unfold untagged
  split
  · exact TagsAt.refl _ s
  · exact TagsAt.putTags _ s _

theorem always_convergeTags (s : Resources) (arn : String) (hd : Entries.Distinct desired) :
    (convergeTags (.text arn) (.object desired)).Always (TagsAt (.text arn) s) s := by
  intro u hu
  rcases visits_convergeTags hd hu with rfl | rfl | rfl
  · exact TagsAt.refl _ _
  · exact tagsAt_tagged _ _ _
  · exact (tagsAt_tagged _ _ _).trans (tagsAt_untagged _ _ _)

theorem resumes_convergeTags (s : Resources) (arn : String) (hd : Entries.Distinct desired) :
    (convergeTags (.text arn) (.object desired)).Resumes (fun _ => ()) s := by
  intro b t u ht hu
  obtain ⟨hr, rfl, -⟩ := (yields_convergeTags hd).1 ht
  rcases visits_convergeTags hd hu with rfl | rfl | rfl
  · exact ⟨b, ht, rfl⟩
  · refine ⟨_, (yields_convergeTags hd).2 ⟨(removes_tagged hd).2 hr, ?_, rfl⟩, rfl⟩
    have hmeets : Meets ((tagged s arn desired).tagsOf (.text arn)) desired := by
      rw [tagsOf_tagged]
      exact Meets.update hd _
    rw [tagged_of_meets hd hmeets]
  · obtain ⟨_, rs, h, -⟩ := rests_convergeTags hd (settled_untagged hd hr)
    exact ⟨_, ⟨rs, h⟩, rfl⟩

end

/-! ## Converging attributes -/

/-- Desired attributes of a load balancer written where they differ. -/
def lbAttributed (s : Resources) (arn : String) (desired : Fields) : Resources :=
  if (toModify (s.lbAttributesOf (.text arn)) desired).isEmpty then s
  else s.putLbAttributes (.text arn)
    ((s.lbAttributesOf (.text arn)).update (labels (toModify (s.lbAttributesOf (.text arn)) desired)))

/-- Desired attributes of a target group written where they differ. -/
def tgAttributed (s : Resources) (arn : String) (desired : Fields) : Resources :=
  if (toModify (s.tgAttributesOf (.text arn)) desired).isEmpty then s
  else s.putTgAttributes (.text arn)
    ((s.tgAttributesOf (.text arn)).update (labels (toModify (s.tgAttributesOf (.text arn)) desired)))

section

variable {s u : Resources} {arn : String} {desired : Fields}

theorem lbAttributesOf_lbAttributed (s : Resources) (arn : String) (desired : Fields) :
    (lbAttributed s arn desired).lbAttributesOf (.text arn) =
      (s.lbAttributesOf (.text arn)).update (labels (toModify (s.lbAttributesOf (.text arn)) desired)) := by
  unfold lbAttributed
  split
  · rename_i h
    rw [List.isEmpty_iff.1 h]
    rfl
  · simp [Resources.lbAttributesOf]

theorem tgAttributesOf_tgAttributed (s : Resources) (arn : String) (desired : Fields) :
    (tgAttributed s arn desired).tgAttributesOf (.text arn) =
      (s.tgAttributesOf (.text arn)).update (labels (toModify (s.tgAttributesOf (.text arn)) desired)) := by
  unfold tgAttributed
  split
  · rename_i h
    rw [List.isEmpty_iff.1 h]
    rfl
  · simp [Resources.tgAttributesOf]

theorem lbAttributed_of_meets (hd : Entries.Distinct desired)
    (h : Meets (s.lbAttributesOf (.text arn)) desired) :
    lbAttributed s arn desired = s := by
  unfold lbAttributed
  split
  · rfl
  · rename_i hne
    rw [h.update_eq hd]
    exact Resources.putLbAttributes_of_get? (h.get?_of_toModify (mt List.isEmpty_iff.2 hne))

theorem tgAttributed_of_meets (hd : Entries.Distinct desired)
    (h : Meets (s.tgAttributesOf (.text arn)) desired) :
    tgAttributed s arn desired = s := by
  unfold tgAttributed
  split
  · rfl
  · rename_i hne
    rw [h.update_eq hd]
    exact Resources.putTgAttributes_of_get? (h.get?_of_toModify (mt List.isEmpty_iff.2 hne))

end

/-- Desired attributes converged, given how they are read and written. -/
def convergeVia (read : Program Labels) (write : Fields → Program Unit) (desired : Value) : Program Bool := do
  if !desired.holds then return false
  let modify := toModify (← read) (← desired.entries)
  if modify.isEmpty then return false
  write modify
  return true

section

variable {read : Program Labels} (write : Fields → Program Unit) {s t u : Resources}
  {current : Labels} {desired : Fields}

theorem does_convergeVia (hr : read.Does s current s) (hw : toModify current desired ≠ [] →
      (write (toModify current desired)).Does s () t) (ht : toModify current desired = [] → t = s) :
    (convergeVia read write (.object desired)).Does s (!(toModify current desired).isEmpty) t := by
  unfold convergeVia
  cases desired with
  | nil =>
    rw [ht rfl]
    exact Program.does_pure false s
  | cons e es =>
    refine hr.before ((Program.does_lift (a := e :: es) rfl s).before ?_)
    by_cases hm : toModify current (e :: es) = []
    · rw [ht hm, hm]
      exact Program.does_pure false s
    · have hne : (toModify current (e :: es)).isEmpty = false := by simpa using hm
      simp only [hne, Bool.false_eq_true, if_false, Bool.not_false]
      exact (hw hm).after (Program.does_pure true t)

theorem rests_convergeVia (hr : read.Does u current u) (hrec : read.Ends u current [] u)
    (hw : toModify current desired ≠ [] → (write (toModify current desired)).Does u () u)
    (h : Meets current desired) :
    (convergeVia read write (.object desired)).Rests (Definite desired) (fun _ => ()) u () := by
  by_cases hm : toModify current desired = []
  · refine ⟨false, [], ?_, rfl, fun _ => rfl⟩
    unfold convergeVia
    cases desired with
    | nil => exact Program.ends_pure.2 ⟨rfl, rfl, rfl⟩
    | cons e es =>
      refine Program.ends_bind.2 ⟨current, [], u, [], hrec, Program.ends_lift_bind.2 ⟨_, rfl, ?_⟩, rfl⟩
      simp [hm]
  · obtain ⟨⟨rs, he⟩, -⟩ := does_convergeVia write hr hw fun _ => rfl
    exact ⟨_, rs, he, rfl, fun hq => absurd (h.toModify_eq_nil hq) hm⟩

end

section

variable (s : Resources) {u : Resources} (arn : String) (desired : Fields)

theorem does_convergeLbAttributes : (convergeLbAttributes (.text arn) (.object desired)).Does s
    (!(toModify (s.lbAttributesOf (.text arn)) desired).isEmpty) (lbAttributed s arn desired) := by
  refine does_convergeVia (fun m => Program.answer (.modifyLbAttributes (.text arn) (.object m)))
    (Program.does_answer (Resources.perform_lbAttributes s arn)) (fun h => ?_) fun h => ?_
  · rw [lbAttributed, if_neg (by simpa using h)]
    exact Program.does_answer (Resources.perform_modifyLbAttributes s arn _)
  · rw [lbAttributed, h]
    rfl

theorem does_convergeTgAttributes : (convergeTgAttributes (.text arn) (.object desired)).Does s
    (!(toModify (s.tgAttributesOf (.text arn)) desired).isEmpty) (tgAttributed s arn desired) := by
  refine does_convergeVia (fun m => Program.answer (.modifyTgAttributes (.text arn) (.object m)))
    (Program.does_answer (Resources.perform_tgAttributes s arn)) (fun h => ?_) fun h => ?_
  · rw [tgAttributed, if_neg (by simpa using h)]
    exact Program.does_answer (Resources.perform_modifyTgAttributes s arn _)
  · rw [tgAttributed, h]
    rfl

variable {arn desired}

theorem rests_convergeLbAttributes (hd : Entries.Distinct desired)
    (h : Meets (u.lbAttributesOf (.text arn)) desired) :
    (convergeLbAttributes (.text arn) (.object desired)).Rests (Definite desired) (fun _ => ()) u () := by
  refine rests_convergeVia (fun m => Program.answer (.modifyLbAttributes (.text arn) (.object m)))
    (Program.does_answer (Resources.perform_lbAttributes u arn))
    (Program.ends_answer.2 ⟨Resources.perform_lbAttributes u arn, rfl⟩) (fun hm => ?_) h
  have hstep := Program.does_answer (Resources.perform_modifyLbAttributes u arn
    (toModify (u.lbAttributesOf (.text arn)) desired))
  have hsame := lbAttributed_of_meets hd h
  rw [lbAttributed, if_neg (by simpa using hm)] at hsame
  rwa [hsame] at hstep

theorem rests_convergeTgAttributes (hd : Entries.Distinct desired)
    (h : Meets (u.tgAttributesOf (.text arn)) desired) :
    (convergeTgAttributes (.text arn) (.object desired)).Rests (Definite desired) (fun _ => ()) u () := by
  refine rests_convergeVia (fun m => Program.answer (.modifyTgAttributes (.text arn) (.object m)))
    (Program.does_answer (Resources.perform_tgAttributes u arn))
    (Program.ends_answer.2 ⟨Resources.perform_tgAttributes u arn, rfl⟩) (fun hm => ?_) h
  have hstep := Program.does_answer (Resources.perform_modifyTgAttributes u arn
    (toModify (u.tgAttributesOf (.text arn)) desired))
  have hsame := tgAttributed_of_meets hd h
  rw [tgAttributed, if_neg (by simpa using hm)] at hsame
  rwa [hsame] at hstep

theorem meets_lbAttributed (arn : String) (hd : Entries.Distinct desired) :
    Meets ((lbAttributed s arn desired).lbAttributesOf (.text arn)) desired := by
  rw [lbAttributesOf_lbAttributed]
  exact Meets.update hd _

theorem meets_tgAttributed (arn : String) (hd : Entries.Distinct desired) :
    Meets ((tgAttributed s arn desired).tgAttributesOf (.text arn)) desired := by
  rw [tgAttributesOf_tgAttributed]
  exact Meets.update hd _

end

end Converge

end Balancer
