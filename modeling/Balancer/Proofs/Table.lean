import Balancer.Key
import Balancer.Table

/-!
# Tables that hold an entry already

* `insert_of_get?`, `update_of_get?` : writing what is there changes nothing, the order of the keys included;
* `entries_ofList` : distinct entries make up a table as they are;
* `mem_values_iff` : the values of a table are those of its keys; `get?_insert_text_iff` : what is
  there after an insertion;
* `eraseAll` : a table without some keys, whatever their order;
* `filter_insert`, `filter_eraseAll` and the like : a table without some values, after a change.
-/

namespace Balancer

set_option autoImplicit false

universe u v
variable {κ : Type u} {β : Type v} [BEq κ]

namespace Entries

theorem put_of_find? {k : κ} {x : β} {es : List (κ × β)} (h : find? k es = some x) : put k x es = es := by
  induction es with
  | nil => simp [find?] at h
  | cons e es ih =>
    unfold put
    simp only [find?] at h
    split at h
    · rename_i hk
      cases h
      rw [if_pos hk]
    · rename_i hk
      rw [if_neg hk, ih h]

theorem put_put [EquivBEq κ] (k : κ) (x y : β) (es : List (κ × β)) : put k y (put k x es) = put k y es := by
  induction es with
  | nil => simp [put]
  | cons e es ih => by_cases h : e.1 == k <;> simp [put, h, ih]

theorem foldl_put_of_find? {es acc : List (κ × β)} (h : ∀ e ∈ es, find? e.1 acc = some e.2) :
    es.foldl (fun acc e => put e.1 e.2 acc) acc = acc := by
  induction es with
  | nil => rfl
  | cons e es ih =>
    rw [List.foldl_cons, put_of_find? (h e (by simp))]
    exact ih fun d hd => h d (by simp [hd])

theorem put_of_find?_eq_none {k : κ} {x : β} {es : List (κ × β)} (h : find? k es = none) :
    put k x es = es ++ [(k, x)] := by
  induction es with
  | nil => rfl
  | cons e es ih =>
    simp only [find?] at h
    split at h
    · cases h
    · rename_i hk
      rw [put, if_neg hk, ih h]
      rfl

omit [BEq κ] in
theorem place_perm (e : String × β) (row : List (String × β)) : (place e row).Perm (e :: row) := by
  induction row with
  | nil => exact .rfl
  | cons d row ih =>
    unfold place
    split
    · exact .rfl
    · exact (ih.cons d).trans (.swap e d row)

omit [BEq κ] in
theorem sorted_perm (es : List (String × β)) : (sorted es).Perm es := by
  induction es with
  | nil => exact .rfl
  | cons e es ih => exact (place_perm e _).trans (ih.cons e)

theorem keys_put_of_find? {k : κ} {x y : β} {es : List (κ × β)} (h : find? k es = some y) :
    (put k x es).map (·.1) = es.map (·.1) := by
  induction es with
  | nil => cases h
  | cons e es ih =>
    unfold put
    simp only [find?] at h
    split at h
    · rename_i hk
      rw [if_pos hk]
      rfl
    · rename_i hk
      rw [if_neg hk, List.map_cons, List.map_cons, ih h]

/-- Distinct entries are collected as they are. -/
theorem collect_of_distinct {es : List (κ × β)} (h : Distinct es) : collect es = es := by
  suffices hacc : ∀ es acc : List (κ × β), Distinct (acc ++ es) →
      es.foldl (fun acc e => put e.1 e.2 acc) acc = acc ++ es from hacc es [] h
  intro es
  induction es with
  | nil => simp
  | cons e es ih =>
    intro acc hd
    have hnone : find? e.1 acc = none :=
      find?_eq_none_iff.2 fun d hm => (List.pairwise_append.1 hd).2.2 d hm e (by simp)
    rw [List.foldl_cons, put_of_find?_eq_none hnone]
    rw [ih (acc ++ [e]) (by simpa using hd)]
    simp

theorem find?_self_of_mem [EquivBEq κ] {e : κ × β} {es : List (κ × β)} (hd : Distinct es) (h : e ∈ es) :
    find? e.1 es = some e.2 := find?_of_mem hd (by simp) h

theorem find?_congr [EquivBEq κ] {k k' : κ} (h : (k == k') = true) (es : List (κ × β)) :
    find? k es = find? k' es := by
  induction es with
  | nil => rfl
  | cons e es ih => simp only [find?, ih, BEq.congr_right h]

section

variable {p : β → Bool} {k : κ} {x : β} {es : List (κ × β)}

theorem filter_put (hx : p x = true) (hold : ∀ y, find? k es = some y → p y = true) :
    (put k x es).filter (fun e => p e.2) = put k x (es.filter fun e => p e.2) := by
  induction es with
  | nil => simp [put, hx]
  | cons e es ih =>
    simp only [find?] at hold
    by_cases hk : e.1 == k
    · have he : p e.2 = true := hold e.2 (by simp [hk])
      simp [put, hk, he, hx]
    · have ih := ih fun y hy => hold y (by simpa [hk] using hy)
      by_cases he : p e.2 <;> simp [put, hk, he, ih]

theorem filter_put_of_not (hx : p x = false) (hold : ∀ y, find? k es = some y → p y = false) :
    (put k x es).filter (fun e => p e.2) = es.filter fun e => p e.2 := by
  induction es with
  | nil => simp [put, hx]
  | cons e es ih =>
    simp only [find?] at hold
    by_cases hk : e.1 == k
    · have he : p e.2 = false := hold e.2 (by simp [hk])
      simp [put, hk, he, hx]
    · have ih := ih fun y hy => hold y (by simpa [hk] using hy)
      by_cases he : p e.2 <;> simp [put, hk, he, ih]

end

end Entries

namespace Table

theorem insert_of_get? {t : Table κ β} {k : κ} {x : β} (h : t.get? k = some x) : t.insert k x = t := by
  obtain ⟨es, hd⟩ := t
  unfold insert
  congr
  exact Entries.put_of_find? h

theorem insert_insert [EquivBEq κ] (t : Table κ β) (k : κ) (x y : β) :
    (t.insert k x).insert k y = t.insert k y := by
  unfold insert
  congr 1
  exact Entries.put_put k x y t.entries

theorem update_of_get? {t u : Table κ β} (h : ∀ e ∈ u.entries, t.get? e.1 = some e.2) : t.update u = t := by
  obtain ⟨es, hd⟩ := t
  unfold update
  congr
  exact Entries.foldl_put_of_find? h

theorem entries_ofList {es : List (κ × β)} (h : Entries.Distinct es) : (ofList es).entries = es :=
  Entries.collect_of_distinct h

theorem ofList_entries (t : Table κ β) : ofList t.entries = t := by
  obtain ⟨es, hd⟩ := t
  unfold ofList
  congr
  exact Entries.collect_of_distinct hd

theorem entries_foldl_insert (es : List (κ × β)) (t : Table κ β) :
    (es.foldl (fun t e => t.insert e.1 e.2) t).entries =
      es.foldl (fun acc e => Entries.put e.1 e.2 acc) t.entries := by
  induction es generalizing t with
  | nil => rfl
  | cons e es ih => exact ih _

theorem foldl_insert_empty (es : List (κ × β)) :
    es.foldl (fun t e => t.insert e.1 e.2) (∅ : Table κ β) = ofList es := by
  have hentries := entries_foldl_insert es (∅ : Table κ β)
  generalize es.foldl _ (∅ : Table κ β) = t at hentries ⊢
  obtain ⟨fs, hd⟩ := t
  obtain rfl : fs = _ := hentries
  rfl

theorem contains_iff {t : Table κ β} {k : κ} : t.contains k = true ↔ ∃ x, t.get? k = some x :=
  Option.isSome_iff_exists

/-- Where there is nothing, there is no table that has a key. -/
theorem get?_of_getD {γ : Type v} {t : Table κ (Table κ γ)} {k k' : κ} {x : γ}
    (h : ((t.get? k).getD ∅).get? k' = some x) :
    t.get? k = some ((t.get? k).getD ∅) := by
  cases ht : t.get? k with
  | none =>
    rw [ht] at h
    cases h
  | some u => rfl

/-- The table without some keys. -/
def eraseAll (t : Table κ β) (ks : List κ) : Table κ β := t.filter fun k _ => !ks.any (k == ·)

theorem eraseAll_nil (t : Table κ β) : t.eraseAll [] = t := by
  obtain ⟨es, hd⟩ := t
  simp [eraseAll, filter]

theorem eraseAll_cons (t : Table κ β) (k : κ) (ks : List κ) :
    t.eraseAll (k :: ks) = (t.erase k).eraseAll ks := by
  unfold eraseAll erase filter
  congr 1
  simp only [Entries.drop, List.filter_filter, List.any_cons, Bool.not_or]
  exact List.filter_congr fun e _ => Bool.and_comm ..

theorem eraseAll_singleton (t : Table κ β) (k : κ) : t.eraseAll [k] = t.erase k := by
  rw [eraseAll_cons, eraseAll_nil]

theorem eraseAll_eraseAll (t : Table κ β) (ks ks' : List κ) :
    (t.eraseAll ks).eraseAll ks' = t.eraseAll (ks ++ ks') := by
  unfold eraseAll filter
  congr 1
  simp only [List.filter_filter, List.any_append, Bool.not_or]
  exact List.filter_congr fun e _ => Bool.and_comm ..

theorem keys_eraseAll (t : Table κ β) (ks : List κ) :
    (t.eraseAll ks).keys = t.keys.filter fun k => !ks.any (k == ·) := by
  unfold keys eraseAll filter Entries.keys
  rw [List.filter_map]
  rfl

/-- Only which keys of the table are left out counts. -/
theorem eraseAll_congr {t : Table κ β} {ks ks' : List κ}
    (h : ∀ e ∈ t.entries, ks.any (e.1 == ·) = ks'.any (e.1 == ·)) :
    t.eraseAll ks = t.eraseAll ks' := by
  unfold eraseAll filter
  congr 1
  exact List.filter_congr fun e he => congrArg (! ·) (h e he)

theorem get?_filter_keys [LawfulBEq κ] (t : Table κ β) (p : κ → Bool) (k : κ) :
    (t.filter fun k _ => p k).get? k = if p k = true then t.get? k else none := by
  refine Option.ext fun x => ?_
  rw [← mem_entries_iff, filter, List.mem_filter, mem_entries_iff]
  by_cases hk : p k = true <;> simp [hk]

section

variable [EquivBEq κ]

theorem get?_congr (t : Table κ β) {k k' : κ} (h : (k == k') = true) : t.get? k = t.get? k' :=
  Entries.find?_congr h t.entries

theorem contains_insert {t : Table κ β} {k k' : κ} {x : β} :
    (t.insert k x).contains k' = true ↔ (k == k') = true ∨ t.contains k' = true := by
  unfold contains
  rw [get?_insert]
  split <;> simp [*]

theorem contains_congr (t : Table κ β) {k k' : κ} (h : (k == k') = true) : t.contains k = t.contains k' :=
  congrArg Option.isSome (t.get?_congr h)

theorem get?_of_mem {t : Table κ β} {e : κ × β} (h : e ∈ t.entries) : t.get? e.1 = some e.2 :=
  Entries.find?_self_of_mem t.distinct h

theorem mem_values_iff {t : Table κ β} {x : β} : x ∈ t.values ↔ ∃ k, t.get? k = some x := by
  unfold values
  rw [List.mem_map]
  constructor
  · rintro ⟨e, he, rfl⟩
    exact ⟨e.1, get?_of_mem he⟩
  · rintro ⟨k, h⟩
    obtain ⟨k', -, hm⟩ := Entries.mem_of_find? h
    exact ⟨(k', x), hm, rfl⟩

theorem get?_insert_of_ne (t : Table κ β) {k k' : κ} (x : β) (h : (k == k') = false) :
    (t.insert k x).get? k' = t.get? k' := by
  rw [get?_insert, if_neg (by simp [h])]

/-- A key of a filtered table has the value that it had. -/
theorem get?_filter_values (t : Table κ β) (p : β → Bool) (k : κ) :
    (t.filter fun _ x => p x).get? k = (t.get? k).filter p := by
  obtain ⟨es, hd⟩ := t
  show Entries.find? k (es.filter fun e => p e.2) = (Entries.find? k es).filter p
  induction es with
  | nil => rfl
  | cons e es ih =>
    obtain ⟨he, hes⟩ := List.pairwise_cons.1 hd
    have ih := ih hes
    by_cases hk : e.1 == k <;> by_cases hp : p e.2
    · simp [Entries.find?, hk, hp, Option.filter]
    · have hnone : Entries.find? k es = none :=
        Entries.find?_eq_none_iff.2 fun d hm => by rw [BEq.comm, ← BEq.congr_left hk, he d hm]
      simp [Entries.find?, hk, hp, Option.filter, ih, hnone]
    · simp [Entries.find?, hk, hp, ih]
    · simp [Entries.find?, hk, hp, ih]

theorem get?_eraseAll (t : Table κ β) (ks : List κ) (k : κ) :
    (t.eraseAll ks).get? k = if ks.any (k == ·) then none else t.get? k := by
  induction ks generalizing t with
  | nil => simp [eraseAll_nil]
  | cons k' ks ih =>
    rw [eraseAll_cons, ih, get?_erase, List.any_cons, BEq.comm (a := k)]
    by_cases h : ks.any (k == ·) <;> by_cases h' : k' == k <;> simp [h, h']

theorem get?_of_get?_eraseAll {t : Table κ β} {ks : List κ} {k : κ} {x : β}
    (h : (t.eraseAll ks).get? k = some x) :
    t.get? k = some x := by
  rw [get?_eraseAll] at h
  split at h
  · cases h
  · exact h

end

/-- An entry after an insertion under a text is the new one, or it was there under another key. -/
theorem get?_insert_text_iff {t : Table Key β} {s : String} {k : Key} {x y : β} :
    (t.insert (.text s) x).get? k = some y ↔ k = .text s ∧ x = y ∨ k ≠ .text s ∧ t.get? k = some y := by
  rw [get?_insert_eq_some_iff, BEq.comm, Bool.eq_false_iff, ne_eq, Key.beq_text_iff]

/-! ## Tables without some values -/

section

variable {t : Table κ β} {p q : β → Bool} {k : κ} {x : β} {ks : List κ}

theorem filter_insert (hx : p x = true) (hold : ∀ y, t.get? k = some y → p y = true) :
    (t.insert k x).filter (fun _ => p) = (t.filter fun _ => p).insert k x := by
  unfold insert filter
  congr 1
  exact Entries.filter_put hx hold

theorem filter_insert_of_not (hx : p x = false) (hold : ∀ y, t.get? k = some y → p y = false) :
    (t.insert k x).filter (fun _ => p) = t.filter fun _ => p := by
  unfold insert filter
  congr 1
  exact Entries.filter_put_of_not hx hold

theorem filter_comm (t : Table κ β) (p q : β → Bool) :
    (t.filter fun _ => q).filter (fun _ => p) = (t.filter fun _ => p).filter fun _ => q := by
  unfold filter
  congr 1
  simp only [List.filter_filter]
  exact List.filter_congr fun e _ => Bool.and_comm ..

theorem filter_filter_of_imp (t : Table κ β) (h : ∀ y, p y = true → q y = true) :
    (t.filter fun _ => q).filter (fun _ => p) = t.filter fun _ => p := by
  unfold filter
  congr 1
  simp only [List.filter_filter]
  refine List.filter_congr fun e _ => ?_
  by_cases he : p e.2
  · simp [he, h e.2 he]
  · simp [he]

theorem filter_eraseAll (t : Table κ β) (p : β → Bool) (ks : List κ) :
    (t.eraseAll ks).filter (fun _ => p) = (t.filter fun _ => p).eraseAll ks := by
  unfold eraseAll filter
  congr 1
  simp only [List.filter_filter]
  exact List.filter_congr fun e _ => Bool.and_comm ..

theorem filter_eraseAll_of_not [EquivBEq κ] (h : ∀ k y, k ∈ ks → t.get? k = some y → p y = false) :
    (t.eraseAll ks).filter (fun _ => p) = t.filter fun _ => p := by
  rw [filter_eraseAll]
  unfold eraseAll filter
  congr 1
  refine List.filter_eq_self.2 fun e he => ?_
  obtain ⟨hmem, hp : p e.2 = true⟩ := List.mem_filter.1 he
  rw [Bool.not_eq_true', List.any_eq_false]
  intro k hk hek
  rw [h k e.2 hk ((get?_congr t hek).symm.trans (get?_of_mem hmem))] at hp
  cases hp

end

end Table

end Balancer
