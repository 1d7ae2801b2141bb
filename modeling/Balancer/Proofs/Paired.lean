import Balancer.Proofs.Value
import Mathlib.Data.List.Forall2

/-!
# Related computations and related objects

* `Paired R x y` : two computations that fail with one error or end with results that `R` relates.
  `Paired.bind_eq` : what goes on alike from related results ends alike; `mapM_eq`, `paired_mapM`,
  `paired_filterM`, `filterMapM_eq` : so it is with lists;
* `SameFields ks v w` : two objects whose fields of some names are the same;
* `Rows R v w` : two lists whose elements are related, or two times nothing;
* `find?_of_alike` : objects that are alike have alike fields. Scalars that are alike are the same
  (`eq_of_alike`), and so are texts under all names (`find?_eq_of_alike`).
-/

namespace Balancer

set_option autoImplicit false

/-! ## Computations -/

section

variable {ε α β γ δ : Type} {R : α → β → Prop} {S : γ → δ → Prop} {x : Except ε α} {y : Except ε β}

/-- Two computations that fail with one error or end with related results. -/
inductive Paired (R : α → β → Prop) : Except ε α → Except ε β → Prop where
  | ok {a : α} {b : β} : R a b → Paired R (.ok a) (.ok b)
  | error (e : ε) : Paired R (.error e) (.error e)

theorem paired_of_eq {R : α → α → Prop} (hR : ∀ a, R a a) {x y : Except ε α} (h : x = y) : Paired R x y := by
  subst h
  cases x with
  | ok a => exact .ok (hR a)
  | error e => exact .error e

theorem Paired.of_ok {a : α} (h : Paired R (.ok a) y) : ∃ b, y = .ok b ∧ R a b := by
  cases h with
  | ok h => exact ⟨_, rfl, h⟩

theorem Paired.symm {R : α → α → Prop} (hR : ∀ a b, R a b → R b a) {x y : Except ε α}
    (h : Paired R x y) : Paired R y x := by
  cases h with
  | ok h => exact .ok (hR _ _ h)
  | error e => exact .error e

theorem Paired.trans {R : α → α → Prop} (hR : ∀ a b c, R a b → R b c → R a c)
    {x y z : Except ε α} (h : Paired R x y) (h' : Paired R y z) : Paired R x z := by
  cases h with
  | ok h =>
    cases h' with
    | ok h' => exact .ok (hR _ _ _ h h')
  | error e => exact h'

theorem Paired.bind_eq {f : α → Except ε γ} {g : β → Except ε γ} (h : Paired R x y)
    (hf : ∀ a b, R a b → f a = g b) :
    (x >>= f) = (y >>= g) := by
  cases h with
  | ok h => exact hf _ _ h
  | error e => rfl

theorem Paired.bind {f : α → Except ε γ} {g : β → Except ε δ} (h : Paired R x y)
    (hf : ∀ a b, R a b → Paired S (f a) (g b)) :
    Paired S (x >>= f) (y >>= g) := by
  cases h with
  | ok h => exact hf _ _ h
  | error e => exact .error e

theorem forall₂_trans {R : α → α → Prop} (hR : ∀ a b c, R a b → R b c → R a c) {as bs cs : List α}
    (h : List.Forall₂ R as bs) (h' : List.Forall₂ R bs cs) : List.Forall₂ R as cs := by
  induction h generalizing cs with
  | nil => exact h'
  | cons hab _ ih =>
    cases h' with
    | cons hbc h' => exact .cons (hR _ _ _ hab hbc) (ih h')

theorem optionRel_trans {R : α → α → Prop} (hR : ∀ a b c, R a b → R b c → R a c) {x y z : Option α}
    (h : Option.Rel R x y) (h' : Option.Rel R y z) : Option.Rel R x z := by
  cases h with
  | none => exact h'
  | some h =>
    cases h' with
    | some h' => exact .some (hR _ _ _ h h')

theorem optionRel_filter {p : α → Bool} {q : β → Bool} {x : Option α} {y : Option β} (h : Option.Rel R x y)
    (hpq : ∀ a b, R a b → p a = q b) : Option.Rel R (x.filter p) (y.filter q) := by
  cases h with
  | none => exact .none
  | some h =>
    rw [Option.filter_some, Option.filter_some, hpq _ _ h]
    split
    · exact .some h
    · exact .none

theorem isSome_of_rel {x : Option α} {y : Option β} (h : Option.Rel R x y) (hy : y.isSome) : x.isSome := by
  cases h with
  | none => exact hy
  | some => rfl

theorem mapM_eq {f : α → Except ε γ} {g : β → Except ε γ} {as : List α} {bs : List β}
    (h : List.Forall₂ R as bs) (hf : ∀ a b, R a b → f a = g b) : as.mapM f = bs.mapM g := by
  induction h with
  | nil => rfl
  | cons hab _ ih => rw [List.mapM_cons, List.mapM_cons, hf _ _ hab, ih]

theorem paired_mapM {f : α → Except ε γ} {g : β → Except ε δ} {as : List α} {bs : List β}
    (h : List.Forall₂ R as bs) (hf : ∀ a b, R a b → Paired S (f a) (g b)) :
    Paired (List.Forall₂ S) (as.mapM f) (bs.mapM g) := by
  induction h with
  | nil => exact .ok .nil
  | cons hab _ ih =>
    rw [List.mapM_cons, List.mapM_cons]
    exact (hf _ _ hab).bind fun c d hcd => ih.bind fun cs ds hcds => .ok (.cons hcd hcds)

theorem paired_filterM {p : α → Except ε Bool} {q : β → Except ε Bool} {as : List α} {bs : List β}
    (h : List.Forall₂ R as bs) (hpq : ∀ a b, R a b → p a = q b) :
    Paired (List.Forall₂ R) (as.filterM p) (bs.filterM q) := by
  have haux : ∀ {as' bs'}, List.Forall₂ R as' bs' →
      Paired (List.Forall₂ R) (as.filterAuxM p as') (bs.filterAuxM q bs') := by
    induction h with
    | nil => exact .ok
    | @cons a b as bs hab _ ih =>
      intro as' bs' h
      unfold List.filterAuxM
      rw [hpq a b hab]
      refine (paired_of_eq (R := Eq) (fun _ => rfl) rfl).bind fun c d hcd => ?_
      subst hcd
      cases c with
      | true => exact ih (.cons hab h)
      | false => exact ih h
  exact (haux .nil).bind fun as bs hab => .ok (List.rel_reverse hab)

theorem filterMapM_eq {f : α → Except ε (Option γ)} {g : β → Except ε (Option γ)} {as : List α} {bs : List β}
    (h : List.Forall₂ R as bs) (hf : ∀ a b, R a b → f a = g b) : as.filterMapM f = bs.filterMapM g := by
  have hloop : ∀ acc, List.filterMapM.loop f as acc = List.filterMapM.loop g bs acc := by
    induction h with
    | nil => exact fun _ => rfl
    | cons hab _ ih =>
      intro acc
      simp only [List.filterMapM.loop, hf _ _ hab, ih]
  exact hloop []

end

/-! ## Fields -/

instance {κ β : Type} [BEq κ] (es : List (κ × β)) : Decidable (Entries.Distinct es) :=
  inferInstanceAs (Decidable (es.Pairwise fun a b => (a.1 == b.1) = false))

namespace Value

/-- Null, an integer or a text. -/
def IsScalar : Value → Prop
  | .null | .number (.integer _) | .text _ => True
  | _ => False

instance : DecidablePred IsScalar
  | .null => isTrue trivial
  | .number (.integer _) => isTrue trivial
  | .text _ => isTrue trivial
  | .number (.fraction _) => isFalse id
  | .bool _ => isFalse id
  | .list _ => isFalse id
  | .object _ => isFalse id

/-- An object with at most one field of each name. -/
def IsRecord (v : Value) : Prop := ∃ fs, v = .object fs ∧ Entries.Distinct fs

/-- A list of values with a property, or nothing. -/
def IsListOf (P : Value → Prop) (v : Value) : Prop := v = .null ∨ ∃ vs, v = .list vs ∧ ∀ x ∈ vs, P x

/-- An object whose fields of some names are scalars. -/
def HasScalars (ks : List String) (v : Value) : Prop :=
  ∃ fs, v = .object fs ∧ Entries.Distinct fs ∧ ∀ k ∈ ks, (Fields.get fs k).IsScalar

/-- Two objects whose fields of some names are the same. -/
def SameFields (ks : List String) (v w : Value) : Prop :=
  ∃ fs gs, v = .object fs ∧ w = .object gs ∧ ∀ k ∈ ks, Entries.find? k fs = Entries.find? k gs

/-- Two lists whose elements are related, or two times nothing. -/
inductive Rows (R : Value → Value → Prop) : Value → Value → Prop where
  | null : Rows R .null .null
  | list {vs ws : List Value} : List.Forall₂ R vs ws → Rows R (.list vs) (.list ws)

section

variable {v w : Value} {vs ws : List Value} {fs gs : Fields} {k : String}
  {ks : List String} {P : Value → Prop}
    {R : Value → Value → Prop}

theorem eq_of_alike (hv : v.IsScalar) (hw : w.IsScalar) (h : v.alike w = true) : v = w := by
  cases v with
  | null => cases w <;> first | rfl | cases h
  | text s => cases w with
    | text t => exact congrArg _ (beq_iff_eq.1 (show (s == t) = true from h))
    | _ => cases h
  | number m => cases w with
    | number n => cases m with
      | integer m => cases n with
        | integer n => simpa [alike, Number.alike, Number.reduced] using h
        | fraction x => exact hw.elim
      | fraction x => exact hv.elim
    | null => cases h
    | text s => cases h
    | _ => exact hw.elim
  | _ => exact hv.elim

theorem eq_of_same (hv : v.IsScalar) (hw : w.IsScalar) (h : v.same w = true) : v = w :=
  eq_of_alike hv hw (Bool.and_eq_true_iff.1 h).2

theorem alike_of_mem (h : alikeFields fs gs = true) {e : String × Value} (he : e ∈ fs) :
    ∃ w, Entries.find? e.1 gs = some w ∧ e.2.alike w = true := by
  induction fs with
  | nil => cases he
  | cons f fs ih =>
    obtain ⟨hf, hfs⟩ := Bool.and_eq_true_iff.1 (show (alikeField f gs && alikeFields fs gs) = true from h)
    rcases List.mem_cons.1 he with rfl | he
    · obtain ⟨k, v⟩ := e
      unfold alikeField at hf
      split at hf
      · rename_i w hw
        exact ⟨w, hw, hf⟩
      · cases hf
    · exact ih hfs he

/-- Objects that are alike have alike fields. -/
theorem find?_of_alike (hd : Entries.Distinct fs) (h : (object fs).alike (object gs) = true) (k : String) :
    (∃ v w, Entries.find? k fs = some v ∧ Entries.find? k gs = some w ∧ v.alike w = true) ∨
      Entries.find? k fs = none ∧ Entries.find? k gs = none := by
  obtain ⟨hlength, hfields⟩ :=
    Bool.and_eq_true_iff.1 (show (fs.length == gs.length && alikeFields fs gs) = true from h)
  cases hk : Entries.find? k fs with
  | some v =>
    obtain ⟨k', hk', hmem⟩ := Entries.mem_of_find? hk
    obtain ⟨w, hw, halike⟩ := alike_of_mem hfields hmem
    rw [beq_iff_eq.1 hk'] at hw
    exact .inl ⟨v, w, rfl, hw, halike⟩
  | none =>
    refine .inr ⟨rfl, ?_⟩
    by_contra hsome
    obtain ⟨w, hw⟩ := Option.ne_none_iff_exists'.1 hsome
    obtain ⟨k', hk', hmem⟩ := Entries.mem_of_find? hw
    rw [beq_iff_eq.1 hk'] at hmem
    -- All names of the first object and this one are names of the second, which has no more
    -- fields than the first.
    have hnodup : (k :: fs.map (·.1)).Nodup := by
      refine List.nodup_cons.2 ⟨fun hin => ?_, ?_⟩
      · obtain ⟨e, he, rfl⟩ := List.mem_map.1 hin
        exact absurd (Entries.find?_eq_none_iff.1 hk e he) (by simp)
      · exact List.pairwise_map.2 (hd.imp fun h => by simpa using h)
    have hsubset : k :: fs.map (·.1) ⊆ gs.map (·.1) := by
      refine List.cons_subset.2 ⟨List.mem_map_of_mem hmem, fun n hn => ?_⟩
      obtain ⟨e, he, rfl⟩ := List.mem_map.1 hn
      obtain ⟨w', hw', -⟩ := alike_of_mem hfields he
      obtain ⟨n', hn', hmem'⟩ := Entries.mem_of_find? hw'
      rw [← beq_iff_eq.1 hn']
      exact List.mem_map_of_mem hmem'
    have hle := (List.subperm_of_subset hnodup hsubset).length_le
    rw [List.length_cons, List.length_map, List.length_map, ← beq_iff_eq.1 hlength] at hle
    omega

theorem get_alike_of_alike (hd : Entries.Distinct fs)
    (h : (object fs).alike (object gs) = true) (k : String) :
    (Fields.get fs k).alike (Fields.get gs k) = true := by
  unfold Fields.get
  rcases find?_of_alike hd h k with ⟨v, w, hv, hw, halike⟩ | ⟨hv, hw⟩
  · rw [hv, hw]
    exact halike
  · rw [hv, hw]
    rfl

theorem find?_eq_of_alike (hd : Entries.Distinct fs) (h : (object fs).alike (object gs) = true)
    (hf : (Fields.get fs k).IsScalar) (hg : (Fields.get gs k).IsScalar) :
    Entries.find? k fs = Entries.find? k gs := by
  unfold Fields.get at hf hg
  rcases find?_of_alike hd h k with ⟨v, w, hv, hw, halike⟩ | ⟨hv, hw⟩
  · rw [hv] at hf ⊢
    rw [hw] at hg ⊢
    exact congrArg some (eq_of_alike hf hg halike)
  · rw [hv, hw]

theorem sameFields_of_alike (hv : v.HasScalars ks) (hw : w.HasScalars ks) (h : v.alike w = true) :
    SameFields ks v w := by
  obtain ⟨fs, rfl, hd, hfs⟩ := hv
  obtain ⟨gs, rfl, -, hgs⟩ := hw
  exact ⟨fs, gs, rfl, rfl, fun k hk => find?_eq_of_alike hd h (hfs k hk) (hgs k hk)⟩

theorem forall₂_of_alike (hvs : ∀ x ∈ vs, P x) (hws : ∀ x ∈ ws, P x) (h : alikeItems vs ws = true)
    (hR : ∀ x y, P x → P y → x.alike y = true → R x y) : List.Forall₂ R vs ws := by
  induction vs generalizing ws with
  | nil => cases ws with
    | nil => exact .nil
    | cons w ws => cases h
  | cons v vs ih => cases ws with
    | nil => cases h
    | cons w ws =>
      obtain ⟨hvw, hrest⟩ := Bool.and_eq_true_iff.1 (show (v.alike w && alikeItems vs ws) = true from h)
      obtain ⟨hv, hvs⟩ := List.forall_mem_cons.1 hvs
      obtain ⟨hw, hws⟩ := List.forall_mem_cons.1 hws
      exact .cons (hR v w hv hw hvw) (ih hvs hws hrest)

theorem rows_of_alike (hv : v.IsListOf P) (hw : w.IsListOf P) (h : v.alike w = true)
    (hR : ∀ x y, P x → P y → x.alike y = true → R x y) : Rows R v w := by
  obtain rfl | ⟨vs, rfl, hvs⟩ := hv
  · obtain rfl | ⟨ws, rfl, hws⟩ := hw
    · exact .null
    · cases h
  · obtain rfl | ⟨ws, rfl, hws⟩ := hw
    · cases h
    · exact .list (forall₂_of_alike hvs hws h hR)

/-! ## What is read of them -/

theorem SameFields.refl (hv : ∃ fs, v = .object fs) : SameFields ks v v := by
  obtain ⟨fs, rfl⟩ := hv
  exact ⟨fs, fs, rfl, rfl, fun _ _ => rfl⟩

theorem SameFields.trans {u : Value} (h : SameFields ks u v) (h' : SameFields ks v w) :
    SameFields ks u w := by
  obtain ⟨fs, gs, rfl, rfl, hfg⟩ := h
  obtain ⟨gs', hs, hgs, rfl, hgh⟩ := h'
  cases hgs
  exact ⟨fs, hs, rfl, rfl, fun k hk => (hfg k hk).trans (hgh k hk)⟩

theorem SameFields.get (h : SameFields ks v w) (hk : k ∈ ks) : v.get k = w.get k := by
  obtain ⟨fs, gs, rfl, rfl, hfg⟩ := h
  rw [get_object, get_object, Fields.get, Fields.get, hfg k hk]

theorem SameFields.getOr (h : SameFields ks v w) (hk : k ∈ ks) (usual : Value) :
    v.getOr k usual = w.getOr k usual := by
  obtain ⟨fs, gs, rfl, rfl, hfg⟩ := h
  rw [getOr_object, getOr_object, Fields.getOr, Fields.getOr, hfg k hk]

theorem SameFields.item (h : SameFields ks v w) (hk : k ∈ ks) : v.item k = w.item k := by
  obtain ⟨fs, gs, rfl, rfl, hfg⟩ := h
  rw [item_object, item_object, Fields.item, Fields.item, hfg k hk]

theorem Rows.trans {u : Value} (hR : ∀ a b c, R a b → R b c → R a c) (h : Rows R u v)
    (h' : Rows R v w) : Rows R u w := by
  cases h with
  | null => exact h'
  | list h =>
    cases h' with
    | list h' => exact .list (forall₂_trans hR h h')

theorem Rows.elementsIfAny (h : Rows R v w) : Paired (List.Forall₂ R) v.elementsIfAny w.elementsIfAny := by
  cases h with
  | null => exact .ok .nil
  | list h =>
    cases h with
    | nil => exact .ok .nil
    | cons hab h => exact .ok (.cons hab h)

theorem Rows.orElse_nil (h : Rows R v w) :
    ∃ vs ws, v.orElse (.list []) = .list vs ∧ w.orElse (.list []) = .list ws ∧ List.Forall₂ R vs ws := by
  cases h with
  | null => exact ⟨[], [], rfl, rfl, .nil⟩
  | list h =>
    cases h with
    | nil => exact ⟨[], [], rfl, rfl, .nil⟩
    | cons hab h => exact ⟨_, _, rfl, rfl, .cons hab h⟩

end

end Value

end Balancer
