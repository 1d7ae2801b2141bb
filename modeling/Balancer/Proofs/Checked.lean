import Mathlib.Data.List.Forall2

/-!
# Lists gone through by a computation that may fail

* `bind_eq_ok_iff` : a computation succeeds if both of its parts do; `ite_throw_eq_ok_iff` : or
  if it does not break off;
* `filterM_map_ok`, `filterMapM_map_ok` : a list is filtered by the results of a computation that does not
  fail on its elements; `isOk_of_filterM` : else there is no result;
* `mapM_eq_ok_iff` : results of all elements, in order.
-/

namespace Balancer

set_option autoImplicit false

variable {α β ε : Type}

theorem bind_eq_ok_iff {x : Except ε α} {f : α → Except ε β} {b : β} :
    (x >>= f) = .ok b ↔ ∃ a, x = .ok a ∧ f a = .ok b := by
  cases x with
  | error e => simp [bind, Except.bind]
  | ok a => simp [bind, Except.bind]

theorem map_eq_ok_iff {x : Except ε α} {f : α → β} {b : β} :
    f <$> x = .ok b ↔ ∃ a, x = .ok a ∧ f a = b := by
  cases x with
  | error e => simp [Functor.map, Except.map]
  | ok a => simp [Functor.map, Except.map]

theorem mapError_eq_ok_iff {ε' : Type} {x : Except ε α} {f : ε → ε'} {a : α} :
    x.mapError f = .ok a ↔ x = .ok a := by
  cases x with
  | error e => exact iff_of_false nofun nofun
  | ok b => exact ⟨fun h => congrArg _ (Except.ok.inj h), fun h => congrArg _ (Except.ok.inj h)⟩

theorem ite_throw_eq_ok_iff {c : Prop} [Decidable c] {e : ε} {f : α → Except ε β} {x : Except ε β} {b : β} :
    (if c then throw e >>= f else x) = .ok b ↔ ¬ c ∧ x = .ok b := by
  by_cases h : c
  · simp [h, throw, throwThe, MonadExceptOf.throw, bind, Except.bind]
  · simp [h]

theorem filterAuxM_map_ok {γ : Type} {p : α → Except ε Bool} {f : γ → α} {q : γ → Bool} {xs : List γ}
    (h : ∀ x ∈ xs, p (f x) = .ok (q x)) (acc : List α) :
    (xs.map f).filterAuxM p acc = .ok (((xs.filter q).map f).reverse ++ acc) := by
  induction xs generalizing acc with
  | nil => rfl
  | cons x xs ih =>
    simp only [List.map_cons, List.filterAuxM, h x (by simp), bind, Except.bind, List.filter_cons]
    rw [ih fun y hy => h y (by simp [hy])]
    cases q x <;> simp

theorem filterM_map_ok {γ : Type} {p : α → Except ε Bool} {f : γ → α} {q : γ → Bool} {xs : List γ}
    (h : ∀ x ∈ xs, p (f x) = .ok (q x)) : (xs.map f).filterM p = .ok ((xs.filter q).map f) := by
  simp [List.filterM, filterAuxM_map_ok h, bind, Except.bind, pure, Except.pure]

theorem filterM_ok {p : α → Except ε Bool} {q : α → Bool} {xs : List α} (h : ∀ x ∈ xs, p x = .ok (q x)) :
    xs.filterM p = .ok (xs.filter q) := by
  simpa using filterM_map_ok (f := id) h

theorem isOk_of_filterAuxM {p : α → Except ε Bool} {xs acc ys : List α} (h : xs.filterAuxM p acc = .ok ys) :
    ∀ x ∈ xs, ∃ b, p x = .ok b := by
  induction xs generalizing acc with
  | nil => simp
  | cons x xs ih =>
    cases hp : p x with
    | error e => simp [List.filterAuxM, hp, bind, Except.bind] at h
    | ok b =>
      simp only [List.filterAuxM, hp, bind, Except.bind] at h
      exact List.forall_mem_cons.2 ⟨⟨b, hp⟩, ih h⟩

theorem isOk_of_filterM {p : α → Except ε Bool} {xs ys : List α} (h : xs.filterM p = .ok ys) :
    ∀ x ∈ xs, ∃ b, p x = .ok b := by
  cases hf : xs.filterAuxM p [] with
  | error e => simp [List.filterM, hf, bind, Except.bind] at h
  | ok zs => exact isOk_of_filterAuxM hf

theorem mem_of_filterM {p : α → Except ε Bool} {xs ys : List α} (h : xs.filterM p = .ok ys) :
    ∀ y ∈ ys, y ∈ xs ∧ p y = .ok true := by
  obtain ⟨q, hq⟩ : ∃ q : α → Bool, ∀ x ∈ xs, p x = .ok (q x) := by
    refine ⟨fun x => match p x with | .ok b => b | .error _ => false, fun x hx => ?_⟩
    obtain ⟨b, hb⟩ := isOk_of_filterM h x hx
    simp only [hb]
  rw [filterM_ok hq] at h
  cases h
  intro y hy
  obtain ⟨hy, hqy⟩ := List.mem_filter.1 hy
  exact ⟨hy, by rw [hq y hy, hqy]⟩

theorem filterMapM_loop_ok {γ : Type} {f : α → Except ε (Option β)} {h : γ → α}
    {g : γ → Option β} {xs : List γ} (hg : ∀ x ∈ xs, f (h x) = .ok (g x)) (acc : List β) :
    List.filterMapM.loop f (xs.map h) acc = .ok (acc.reverse ++ xs.filterMap g) := by
  induction xs generalizing acc with
  | nil => simp [List.filterMapM.loop, pure, Except.pure]
  | cons x xs ih =>
    simp only [List.map_cons, List.filterMapM.loop, hg x (by simp), bind, Except.bind, List.filterMap_cons]
    cases g x with
    | none => exact ih (fun y hy => hg y (by simp [hy])) acc
    | some b => simpa using ih (fun y hy => hg y (by simp [hy])) (b :: acc)

theorem filterMapM_map_ok {γ : Type} {f : α → Except ε (Option β)} {h : γ → α}
    {g : γ → Option β} {xs : List γ} (hg : ∀ x ∈ xs, f (h x) = .ok (g x)) :
    (xs.map h).filterMapM f = .ok (xs.filterMap g) := by
  rw [List.filterMapM, filterMapM_loop_ok hg]
  rfl

theorem mem_of_filterMapM {f : α → Except ε (Option β)} {xs : List α} {ys : List β}
    (h : xs.filterMapM f = .ok ys) :
    ∀ y ∈ ys, ∃ x ∈ xs, f x = .ok (some y) := by
  have hloop : ∀ (xs : List α) (acc ys : List β), List.filterMapM.loop f xs acc = .ok ys →
      ∀ y ∈ ys, y ∈ acc ∨ ∃ x ∈ xs, f x = .ok (some y) := by
    intro xs
    induction xs with
    | nil =>
      intro acc ys h y hy
      cases h
      exact .inl (List.mem_reverse.1 hy)
    | cons x xs ih =>
      intro acc ys h y hy
      obtain ⟨o, ho, h⟩ := bind_eq_ok_iff.1 h
      cases o with
      | none =>
        refine (ih acc ys h y hy).imp_right ?_
        rintro ⟨x', hx', hf⟩
        exact ⟨x', by simp [hx'], hf⟩
      | some b =>
        rcases ih (b :: acc) ys h y hy with hm | ⟨x', hx', hf⟩
        · rcases List.mem_cons.1 hm with rfl | hm
          · exact .inr ⟨x, by simp, ho⟩
          · exact .inl hm
        · exact .inr ⟨x', by simp [hx'], hf⟩
  exact fun y hy => (hloop xs [] ys h y hy).resolve_left (by simp)

theorem mapM_eq_ok_iff {f : α → Except ε β} {xs : List α} {ys : List β} :
    xs.mapM f = .ok ys ↔ List.Forall₂ (fun x y => f x = .ok y) xs ys := by
  induction xs generalizing ys with
  | nil => simp [pure, Except.pure, eq_comm]
  | cons x xs ih =>
    rw [List.mapM_cons]
    cases hf : f x with
    | error e => simp [bind, Except.bind, List.forall₂_cons_left_iff, hf]
    | ok y =>
      cases hm : xs.mapM f with
      | error e => simp [bind, Except.bind, List.forall₂_cons_left_iff, ← ih, hm]
      | ok zs =>
        simp [bind, Except.bind, pure, Except.pure, List.forall₂_cons_left_iff, ← ih, hm, hf, eq_comm]

theorem mem_of_mapM {f : α → Except ε β} {xs : List α} {ys : List β} (h : xs.mapM f = .ok ys) :
    ∀ y ∈ ys, ∃ x ∈ xs, f x = .ok y := by
  rw [mapM_eq_ok_iff] at h
  induction h with
  | nil => simp
  | cons hf _ ih =>
    refine List.forall_mem_cons.2 ⟨⟨_, List.mem_cons_self, hf⟩, fun y hy => ?_⟩
    obtain ⟨x, hx, hfx⟩ := ih y hy
    exact ⟨x, List.mem_cons_of_mem _ hx, hfx⟩

theorem exists_of_mapM {f : α → Except ε β} {xs : List α} {ys : List β} (h : xs.mapM f = .ok ys) :
    ∀ x ∈ xs, ∃ y ∈ ys, f x = .ok y := by
  rw [mapM_eq_ok_iff] at h
  induction h with
  | nil => simp
  | cons hf _ ih =>
    refine List.forall_mem_cons.2 ⟨⟨_, List.mem_cons_self, hf⟩, fun x hx => ?_⟩
    obtain ⟨y, hy, hfx⟩ := ih x hx
    exact ⟨y, List.mem_cons_of_mem _ hy, hfx⟩

theorem isOk_mapM {f : α → Except ε β} {xs : List α} (h : ∀ x ∈ xs, ∃ y, f x = .ok y) :
    ∃ ys, xs.mapM f = .ok ys := by
  induction xs with
  | nil => exact ⟨[], rfl⟩
  | cons x xs ih =>
    obtain ⟨⟨y, hy⟩, hxs⟩ := List.forall_mem_cons.1 h
    obtain ⟨ys, hys⟩ := ih hxs
    exact ⟨y :: ys, mapM_eq_ok_iff.2 (.cons hy (mapM_eq_ok_iff.1 hys))⟩

end Balancer
