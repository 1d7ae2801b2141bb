import Balancer.Converge.Listeners
import Mathlib.Data.List.Pairwise
import Mathlib.Data.List.Perm.Basic
import Mathlib.Data.String.Basic

/-!
# Comparing and sorting values

* `Key.alike_toValue` : keys are equal when their values are alike;
* `Value.Agrees w v` : `w` is the value `v`, or equal to it; of a text that is the text
  itself (`Value.agrees_text`);
* `sortBy_perm`, `sortBy_isOk` : a sorted list has the elements of the list, and there is one if every
  element can be compared with those in front of it; `Key.sortBy_of_covered` : some of the keys that can
  be sorted can be sorted;
* `sortBy_map` : a list comes in the linear order that the comparison decides, such as texts
  (`Value.sorted_texts`); `Key.sortBy_of_perm` : those come alike whatever their order.
-/

namespace Balancer

set_option autoImplicit false

/-! ## Keys and values -/

namespace Key

@[simp] theorem key_toValue (k : Key) : k.toValue.key = .ok k := by
  cases k <;> rfl

theorem alike_toValue (a b : Key) : a.toValue.alike b.toValue = (a == b) := by
  have hbit : ∀ c : Bool, (Value.bit c).reduced = .integer (if c then 1 else 0) := fun _ => rfl
  rw [Bool.eq_iff_iff, beq_iff_meaning]
  cases a <;> cases b <;>
    simp only [toValue, Value.alike, meaning, Number.alike, hbit, decide_eq_true_eq,
      Option.some.injEq, Sum.inl.injEq, Sum.inr.injEq, beq_iff_eq, Bool.false_eq_true, reduceCtorEq]
  rename_i a b
  cases a <;> cases b <;> simp

theorem beq_of_same {a b : Key} (h : a.toValue.same b.toValue = true) : (a == b) = true := by
  rw [← alike_toValue]
  exact (Bool.and_eq_true_iff.1 h).2

theorem toValue_inj {a b : Key} (h : a.toValue = b.toValue) : a = b := by
  cases a <;> cases b <;> simp_all [toValue]

theorem eq_text_of_beq {k : Key} {s : String} (h : (k == .text s) = true) : k = .text s := beq_text_iff.1 h

theorem text_beq_eq_false {s : String} {k : Key} (h : k ≠ .text s) : (k == .text s) = false := by
  rw [Bool.eq_false_iff]
  exact fun hk => h (beq_text_iff.1 hk)

end Key

namespace Value

/-- Only what is written as a key reads as it. -/
theorem eq_toValue_of_key {v : Value} {k : Key} (h : v.key = .ok k) : v = k.toValue := by
  cases v <;> simp_all [key, Mismatch.error] <;> cases h <;> rfl

theorem eq_text_of_textFor {v : Value} {operation s : String}
    (h : v.textFor operation = .ok s) : v = .text s := by
  cases v <;> cases h
  rfl

theorem eq_text_of_asText {v : Value} {s : String} (h : v.asText = .ok s) : v = .text s := by
  cases v <;> cases h
  rfl

/-- A value that is another one, or equal to it. -/
def Agrees (w v : Value) : Prop := w = v ∨ w.same v = true

theorem agrees_text {w : Value} {s : String} : w.Agrees (.text s) ↔ w = .text s := by
  unfold Agrees
  rw [same_text_iff, or_self]

theorem Agrees.same {w v : Value} (h : w.Agrees v) (hv : v.same v = true) : w.same v = true := by
  rcases h with rfl | h
  · exact hv
  · exact h

@[simp] theorem same_self_text (s : String) : same (.text s) (.text s) = true := by simp

@[simp] theorem same_self_int (n : Int) : same (.int n) (.int n) = true := by simp

theorem isOneOf_iff {v : Value} {words : List String} :
    v.isOneOf words = true ↔ ∃ w ∈ words, v = .text w := by
  cases v with
  | text s => simp [isOneOf]
  | _ => simp [isOneOf]

@[simp] theorem get_object (fs : Fields) (k : String) : (object fs).get k = .ok (Fields.get fs k) := rfl

@[simp] theorem getOr_object (fs : Fields) (k : String) (v : Value) :
    (object fs).getOr k v = .ok (Fields.getOr fs k v) := rfl

@[simp] theorem item_object (fs : Fields) (k : String) : (object fs).item k = Fields.item fs k := rfl

@[simp] theorem entries_object (fs : Fields) : (object fs).entries = .ok fs := rfl

@[simp] theorem elements_list (vs : List Value) : (list vs).elements = .ok vs := rfl

theorem before_int (m n : Int) : (int m).before (.int n) = .ok (decide (m < n)) := by
  have hlt : (compare m n == .lt) = decide (m < n) := by
    rw [Bool.eq_iff_iff, beq_iff_eq, compare_lt_iff_lt, decide_eq_true_eq]
  rw [← hlt]
  rfl

/-- A list of texts has only texts. -/
theorem has_texts_iff {names : List String} {v : Value} :
    (list (names.map .text)).has v = .ok true ↔ ∃ n, v = .text n ∧ n ∈ names := by
  have halike : ∀ n : String, (text n).alike v = true ↔ v = .text n := by
    intro n
    cases v with
    | text m =>
      rw [text.injEq]
      exact (show (n == m) = true ↔ n = m from beq_iff_eq).trans eq_comm
    | _ => exact iff_of_false Bool.false_ne_true nofun
  show Except.ok ((names.map text).any (·.alike v)) = .ok true ↔ _
  simp only [Except.ok.injEq, List.any_eq_true, List.mem_map]
  constructor
  · rintro ⟨_, ⟨n, hn, rfl⟩, hname⟩
    exact ⟨n, (halike n).1 hname, hn⟩
  · rintro ⟨n, hname, hn⟩
    exact ⟨_, ⟨n, hn, rfl⟩, (halike n).2 hname⟩

theorem has_texts (names : List String) (s : String) :
    (list (names.map .text)).has (.text s) = .ok (decide (s ∈ names)) := by
  have hiff : (list (names.map .text)).has (.text s) = .ok true ↔ _ := has_texts_iff
  obtain ⟨b, hb⟩ : ∃ b, (list (names.map .text)).has (.text s) = .ok b := ⟨_, rfl⟩
  rw [hb, Except.ok.injEq] at hiff
  rw [hb, Except.ok.injEq, Bool.eq_iff_iff, hiff, decide_eq_true_eq]
  simp

theorem textsAt_texts (place : Nat) (names : List String) : textsAt place (names.map .text) = .ok names := by
  induction names generalizing place with
  | nil => rfl
  | cons n names ih =>
    rw [List.map_cons, textsAt, ih]
    rfl

end Value

namespace Fields

theorem find?_of_get_text {fs : Fields} {k s : String} (h : get fs k = .text s) :
    Entries.find? k fs = some (.text s) := by
  unfold get at h
  cases hf : Entries.find? k fs with
  | none => simp [hf] at h
  | some v =>
    rw [hf] at h
    exact congrArg some h

theorem item_of_get_text {fs : Fields} {k s : String} (h : get fs k = .text s) :
    item fs k = .ok (.text s) := by
  rw [item, find?_of_get_text h]

theorem item_of_get {fs : Fields} {k : String} (h : get fs k ≠ .null) : item fs k = .ok (get fs k) := by
  unfold get item at *
  cases hk : Entries.find? k fs with
  | none =>
    rw [hk] at h
    exact absurd rfl h
  | some v => rfl

theorem get_of_item {fs : Fields} {k : String} {v : Value} (h : item fs k = .ok v) : get fs k = v := by
  unfold item at h
  unfold get
  split at h
  · rename_i hf
    cases h
    rw [hf]
    rfl
  · cases h

theorem get_put (fs : Fields) (k k' : String) (v : Value) :
    get (Entries.put k v fs) k' = if k = k' then v else get fs k' := by
  unfold get
  rw [Entries.find?_put]
  by_cases h : k = k' <;> simp [h]

end Fields

/-- A text can always be taken out of a table. -/
theorem Table.without_text {β : Type} (t : Table Key β) (s : String) :
    t.without (.text s) = .ok (t.erase (.text s)) := by
  obtain ⟨es, hd⟩ := t
  unfold without take
  split
  · rename_i h
    obtain rfl : es = [] := List.isEmpty_iff.1 h
    rfl
  · rfl

/-! ## Sorting -/

section

variable {α β : Type} {before : α → α → Except Error Bool}

theorem placeIn_perm {x : α} {row ys : List α} (h : placeIn before x row = .ok ys) : ys.Perm (x :: row) := by
  induction row generalizing ys with
  | nil =>
    cases h
    rfl
  | cons y row ih =>
    unfold placeIn at h
    cases hb : before x y with
    | error e => simp [hb, bind, Except.bind] at h
    | ok b =>
      cases b with
      | false =>
        simp only [hb, bind, Except.bind, pure, Except.pure, Bool.false_eq_true, if_false] at h
        cases h
        rfl
      | true =>
        cases hp : placeIn before x row with
        | error e => simp [hb, hp, bind, Except.bind] at h
        | ok zs =>
          simp only [hb, hp, bind, Except.bind, pure, Except.pure, if_true] at h
          cases h
          exact ((ih hp).cons y).trans (List.Perm.swap x y row)

/-- A sorted list with its last element first, row by row. -/
theorem foldlM_placeIn_perm {xs row ys : List α}
    (h : xs.foldlM (fun row x => placeIn before x row) row = .ok ys) :
    ys.Perm (xs ++ row) := by
  induction xs generalizing row with
  | nil =>
    cases h
    rfl
  | cons x xs ih =>
    rw [List.foldlM_cons] at h
    cases hp : placeIn before x row with
    | error e => simp [hp, bind, Except.bind] at h
    | ok zs =>
      simp only [hp, bind, Except.bind] at h
      exact (ih h).trans (((placeIn_perm hp).append_left xs).trans List.perm_middle)

theorem sortBy_perm {xs ys : List α} (h : sortBy before xs = .ok ys) : ys.Perm xs := by
  unfold sortBy at h
  cases hf : xs.foldlM (fun row x => placeIn before x row) [] with
  | error e => simp [hf, bind, Except.bind] at h
  | ok row =>
    simp only [hf, bind, Except.bind, pure, Except.pure] at h
    cases h
    exact row.reverse_perm.trans (by simpa using foldlM_placeIn_perm hf)

@[simp] theorem sortBy_nil : sortBy before [] = .ok [] := rfl

@[simp] theorem sortBy_singleton (x : α) : sortBy before [x] = .ok [x] := rfl

theorem placeIn_isOk {x : α} {row : List α} (h : ∀ y ∈ row, ∃ b, before x y = .ok b) :
    ∃ ys, placeIn before x row = .ok ys := by
  induction row with
  | nil => exact ⟨[x], rfl⟩
  | cons y row ih =>
    obtain ⟨b, hb⟩ := h y (by simp)
    obtain ⟨ys, hy⟩ := ih fun z hz => h z (by simp [hz])
    unfold placeIn
    cases b with
    | false => exact ⟨x :: y :: row, by simp [hb, bind, Except.bind, pure, Except.pure]⟩
    | true => exact ⟨y :: ys, by simp [hb, hy, bind, Except.bind, pure, Except.pure]⟩

/-- A list can be sorted if every element can be compared with those in front of it. -/
theorem sortBy_isOk {xs : List α} (h : xs.Pairwise fun a b => ∃ r, before b a = .ok r) :
    ∃ ys, sortBy before xs = .ok ys := by
  suffices hrow : ∀ (xs row : List α), (xs.Pairwise fun a b => ∃ r, before b a = .ok r) →
      (∀ y ∈ row, ∀ x ∈ xs, ∃ r, before x y = .ok r) →
      ∃ ys, xs.foldlM (fun row x => placeIn before x row) row = .ok ys by
    obtain ⟨ys, hy⟩ := hrow xs [] h (by simp)
    exact ⟨ys.reverse, by simp [sortBy, hy, bind, Except.bind, pure, Except.pure]⟩
  intro xs
  induction xs with
  | nil => exact fun row _ _ => ⟨row, rfl⟩
  | cons x xs ih =>
    intro row hxs hrow
    obtain ⟨hx, hxs⟩ := List.pairwise_cons.1 hxs
    obtain ⟨row', hp⟩ := placeIn_isOk fun y hy => hrow y hy x (by simp)
    obtain ⟨ys, hy⟩ := ih row' hxs fun y hy z hz => by
      rcases List.mem_cons.1 ((placeIn_perm hp).mem_iff.1 hy) with rfl | hy
      · exact hx z hz
      · exact hrow y hy z (by simp [hz])
    exact ⟨ys, by simp [List.foldlM_cons, hp, hy, bind, Except.bind]⟩

/-- If only elements of one class can be compared, only those of one class can be sorted. -/
theorem pairwise_of_sortBy {cls : α → Option β}
    (hcls : ∀ a b r, before a b = .ok r → cls a = cls b ∧ cls a ≠ none) {xs ys : List α}
    (h : sortBy before xs = .ok ys) : xs.Pairwise fun a b => cls a = cls b ∧ cls a ≠ none := by
  have hsymm : ∀ a b : α, cls a = cls b ∧ cls a ≠ none → cls b = cls a ∧ cls b ≠ none := by
    intro a b hab
    exact ⟨hab.1.symm, hab.1 ▸ hab.2⟩
  suffices hrow : ∀ (xs row ys : List α), (row.Pairwise fun a b => cls a = cls b ∧ cls a ≠ none) →
      xs.foldlM (fun row x => placeIn before x row) row = .ok ys →
      (ys.Pairwise fun a b => cls a = cls b ∧ cls a ≠ none) by
    unfold sortBy at h
    cases hf : xs.foldlM (fun row x => placeIn before x row) [] with
    | error e => simp [hf, bind, Except.bind] at h
    | ok row =>
      have hp := hrow xs [] row List.Pairwise.nil hf
      have hperm := foldlM_placeIn_perm hf
      rw [List.append_nil] at hperm
      exact (hperm.pairwise_iff fun {a b} => hsymm a b).1 hp
  intro xs
  induction xs with
  | nil =>
    intro row ys hrow hf
    cases hf
    exact hrow
  | cons x xs ih =>
    intro row ys hrow hf
    rw [List.foldlM_cons] at hf
    cases hp : placeIn before x row with
    | error e => simp [hp, bind, Except.bind] at hf
    | ok row' =>
      simp only [hp, bind, Except.bind] at hf
      refine ih row' ys ?_ hf
      refine ((placeIn_perm hp).pairwise_iff fun {a b} => hsymm a b).2
        (List.pairwise_cons.2 ⟨fun y hy => ?_, hrow⟩)
      -- the first comparison is with the head of the row, whose class the whole row has
      cases row with
      | nil => simp at hy
      | cons z row =>
        have hz : cls x = cls z ∧ cls x ≠ none := by
          unfold placeIn at hp
          cases hb : before x z with
          | error e => simp [hb, bind, Except.bind] at hp
          | ok r => exact hcls x z r hb
        rcases List.mem_cons.1 hy with rfl | hy
        · exact hz
        · exact ⟨hz.1.trans ((List.pairwise_cons.1 hrow).1 y hy).1, hz.2⟩

end

section

variable {α γ δ : Type} {before : α → α → Except Error Bool} [LinearOrder δ] {f : γ → α} {key : γ → δ}

/-- A row, the last first, with one more, if the comparison decides a linear order of keys. -/
theorem placeIn_key (hbefore : ∀ x y, before (f x) (f y) = .ok (decide (key x < key y)))
    (x : γ) {row : List γ} (hrow : row.Pairwise fun a b => key b ≤ key a) :
    ∃ row' : List γ, placeIn before (f x) (row.map f) = .ok (row'.map f) ∧ row'.Perm (x :: row) ∧
      row'.Pairwise fun a b => key b ≤ key a := by
  induction row with
  | nil => exact ⟨[x], rfl, .refl _, List.pairwise_singleton _ _⟩
  | cons y row ih =>
    obtain ⟨hy, hrest⟩ := List.pairwise_cons.1 hrow
    obtain ⟨row', hplace, hperm, hrow'⟩ := ih hrest
    rw [List.map_cons, placeIn, hbefore]
    by_cases hxy : key x < key y
    · refine ⟨y :: row', ?_, (hperm.cons y).trans (.swap x y row),
        List.pairwise_cons.2 ⟨fun z hz => ?_, hrow'⟩⟩
      · simp [hxy, hplace, bind, Except.bind, pure, Except.pure]
      · rcases List.mem_cons.1 (hperm.mem_iff.1 hz) with rfl | hz
        · exact hxy.le
        · exact hy z hz
    · refine ⟨x :: y :: row, ?_, .refl _, List.pairwise_cons.2 ⟨fun z hz => ?_, hrow⟩⟩
      · simp [hxy, bind, Except.bind, pure, Except.pure]
      · rcases List.mem_cons.1 hz with rfl | hz
        · exact not_lt.1 hxy
        · exact (hy z hz).trans (not_lt.1 hxy)

variable (before key) in
/-- A list is put in the linear order of keys that the comparison decides. -/
theorem sortBy_key (hbefore : ∀ x y, before (f x) (f y) = .ok (decide (key x < key y))) (xs : List γ) :
    ∃ ys : List γ, sortBy before (xs.map f) = .ok (ys.map f) ∧ ys.Perm xs ∧
      ys.Pairwise fun a b => key a ≤ key b := by
  suffices hrow : ∀ xs row : List γ, (row.Pairwise fun a b => key b ≤ key a) →
      ∃ row' : List γ, (xs.map f).foldlM (fun row x => placeIn before x row) (row.map f) = .ok (row'.map f) ∧
        row'.Perm (xs ++ row) ∧ row'.Pairwise fun a b => key b ≤ key a by
    obtain ⟨row, hfold, hperm, hsorted⟩ := hrow xs [] List.Pairwise.nil
    refine ⟨row.reverse, ?_, row.reverse_perm.trans (by simpa using hperm), List.pairwise_reverse.2 hsorted⟩
    rw [List.map_nil] at hfold
    simp [sortBy, hfold, bind, Except.bind, pure, Except.pure]
  intro xs
  induction xs with
  | nil => exact fun row hrow => ⟨row, rfl, .refl _, hrow⟩
  | cons x xs ih =>
    intro row hrow
    obtain ⟨row₁, hplace, hperm₁, hrow₁⟩ := placeIn_key hbefore x hrow
    obtain ⟨row₂, hfold, hperm₂, hrow₂⟩ := ih row₁ hrow₁
    refine ⟨row₂, ?_, hperm₂.trans ((hperm₁.append_left xs).trans List.perm_middle), hrow₂⟩
    rw [List.map_cons, List.foldlM_cons, hplace]
    exact hfold

/-- A list is put in the linear order that the comparison decides. -/
theorem sortBy_map {f : δ → α} (hbefore : ∀ x y, before (f x) (f y) = .ok (decide (x < y))) (xs : List δ) :
    ∃ ys : List δ, sortBy before (xs.map f) = .ok (ys.map f) ∧ ys.Perm xs ∧ ys.Pairwise (· ≤ ·) :=
  sortBy_key before id hbefore xs

end

/-! ## Sorting keys -/

namespace Key

/-- The kind of keys that a key can be compared with: texts, or numbers and truth values. -/
def order? : Key → Option Bool
  | .null => none
  | .bool _ | .number _ => some false
  | .text _ => some true

theorem before_isOk_iff (a b : Key) : (∃ r, a.before b = .ok r) ↔ a.order? = b.order? ∧ a.order? ≠ none := by
  cases a <;> cases b <;> simp [before, toValue, Value.before, Value.number?, order?, Mismatch.error]

theorem order?_congr {a b : Key} (h : (a == b) = true) : a.order? = b.order? := by
  rw [beq_iff_meaning] at h
  cases a <;> cases b <;> first | rfl | cases h

/-- Entries can be sorted if their keys are among those of entries that can be sorted. -/
theorem sortBy_of_covered {β : Type} {xs ys zs : List (Key × β)} (hd : Entries.Distinct zs)
    (hfind : ∀ e ∈ zs, ∃ d ∈ xs, (d.1 == e.1) = true) (h : sortBy (fun a b => a.1.before b.1) xs = .ok ys) :
    ∃ ws, sortBy (fun a b => a.1.before b.1) zs = .ok ws := by
  have hcls : ∀ (a b : Key × β) r, a.1.before b.1 = .ok r → a.1.order? = b.1.order? ∧ a.1.order? ≠ none :=
    fun a b r hr => (before_isOk_iff a.1 b.1).1 ⟨r, hr⟩
  have : Std.Symm fun a b : Key × β => a.1.order? = b.1.order? ∧ a.1.order? ≠ none :=
    ⟨fun a b hab => ⟨hab.1.symm, hab.1 ▸ hab.2⟩⟩
  refine sortBy_isOk (hd.imp_of_mem fun {e e'} he he' hne => ?_)
  obtain ⟨d, hmem, hde⟩ := hfind e he
  obtain ⟨d', hmem', hde'⟩ := hfind e' he'
  have hdd : d' ≠ d := by
    rintro rfl
    rw [BEq.trans (BEq.symm hde) hde'] at hne
    cases hne
  refine (before_isOk_iff e'.1 e.1).2 ?_
  rw [← order?_congr hde, ← order?_congr hde']
  exact (pairwise_of_sortBy hcls h).forall hmem' hmem hdd

/-- Texts can be sorted. -/
theorem exists_sorted_texts {ks : List Key} (h : ∀ k ∈ ks, ∃ s, k = .text s) :
    ∃ row, sortBy before ks = .ok row ∧ row.Perm ks := by
  obtain ⟨row, hrow⟩ : ∃ row, sortBy before ks = .ok row := by
    refine sortBy_isOk (List.pairwise_of_forall_mem_list fun a ha b hb => ?_)
    obtain ⟨x, rfl⟩ := h a ha
    obtain ⟨y, rfl⟩ := h b hb
    exact ⟨_, rfl⟩
  exact ⟨row, hrow, sortBy_perm hrow⟩

theorem sortBy_texts (xs : List String) :
    ∃ ys : List String, sortBy before (xs.map .text) = .ok (ys.map .text) ∧ ys.Perm xs ∧
      ys.Pairwise (· ≤ ·) :=
  sortBy_map (fun _ _ => rfl) xs

/-- Texts are sorted alike whatever their order. -/
theorem sortBy_of_perm {ks ks' : List Key} (h : ks.Perm ks') (htext : ∀ k ∈ ks, ∃ s, k = .text s) :
    sortBy before ks = sortBy before ks' := by
  have hexists : ∀ {ls : List Key}, (∀ k ∈ ls, ∃ s, k = .text s) → ∃ xs : List String, ls = xs.map .text := by
    intro ls hls
    induction ls with
    | nil => exact ⟨[], rfl⟩
    | cons l ls ih =>
      obtain ⟨⟨s, rfl⟩, hrest⟩ := List.forall_mem_cons.1 hls
      obtain ⟨xs, rfl⟩ := ih hrest
      exact ⟨s :: xs, rfl⟩
  obtain ⟨xs, rfl⟩ := hexists htext
  obtain ⟨xs', rfl⟩ := hexists fun k hk => htext k (h.mem_iff.2 hk)
  obtain ⟨ys, hys, hperm, hsorted⟩ := sortBy_texts xs
  obtain ⟨ys', hys', hperm', hsorted'⟩ := sortBy_texts xs'
  rw [hys, hys', List.Perm.eq_of_pairwise (fun _ _ _ _ => String.le_antisymm) hsorted hsorted'
    (hperm.trans (((List.map_perm_map_iff fun _ _ => Key.text.inj).1 h).trans hperm'.symm))]

end Key

theorem Value.sorted_texts (xs : List String) :
    ∃ ys : List String, Value.sorted (xs.map .text) = .ok (ys.map .text) ∧ ys.Perm xs ∧ ys.Pairwise (· ≤ ·) :=
  sortBy_map (fun _ _ => rfl) xs

end Balancer
