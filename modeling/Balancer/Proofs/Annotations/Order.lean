import Balancer.Proofs.Annotations
import Balancer.Proofs.Cloud.Quiet
import Balancer.Proofs.Routing.Reads
import Balancer.Proofs.Text

/-!
# The order of annotations

* `Value.IsTexts`, `Value.InOrder` : texts under different names, and names in their order;
* `Reordered v w` : the same annotations in some order. What is the same is so (`reordered_of_same`), and all
  of it is equal if both are in order (`Reordered.eq`);
* `Demands X x y` : what reordered annotations ask for. It is the same but for the order of the declared
  actions, or both times an action cannot be read; which one that is depends on the order, and `X` rules that
  out. `demands_of_reordered`.
-/

namespace Balancer

set_option autoImplicit false

/-! ## Entries in another order -/

namespace Entries

variable {β : Type} {es ds : List (String × β)}

theorem perm_of_find? (hes : Distinct es) (hds : Distinct ds)
    (h : ∀ k, find? k es = find? k ds) : es.Perm ds := by
  have hnodup : ∀ {es : List (String × β)}, Distinct es → es.Nodup :=
    fun hd => hd.imp fun hne heq => by simp [heq] at hne
  refine (List.perm_ext_iff_of_nodup (hnodup hes) (hnodup hds)).2 fun ⟨k, x⟩ => ?_
  rw [Table.mem_entries_iff ⟨es, hes⟩, Table.mem_entries_iff ⟨ds, hds⟩]
  exact Eq.congr_left (h k)

theorem find?_of_perm (hes : Distinct es) (h : es.Perm ds) (k : String) : find? k es = find? k ds := by
  have hds : Distinct ds := h.pairwise hes fun hne => by rwa [BEq.comm]
  refine Option.ext fun x => ?_
  have hmem : (k, x) ∈ es ↔ (k, x) ∈ ds := h.mem_iff
  rwa [Table.mem_entries_iff ⟨es, hes⟩, Table.mem_entries_iff ⟨ds, hds⟩] at hmem

end Entries

/-! ## Texts under names -/

namespace Value

/-- Texts under different names, or nothing. -/
def IsTexts (v : Value) : Prop :=
  v = .null ∨ ∃ fs, v = .object fs ∧ Entries.Distinct fs ∧ ∀ e ∈ fs, ∃ s, e.2 = .text s

/-- The names of an object stand in their order. -/
def InOrder (v : Value) : Prop := ∀ fs, v = .object fs → fs.Pairwise fun e f => e.1 < f.1

/-- The same texts under names, each time in an order of their own, or two times nothing. -/
inductive Reordered : Value → Value → Prop where
  | null : Reordered .null .null
  | object {fs gs : Fields} : Entries.Distinct fs → (∀ e ∈ fs, ∃ s, e.2 = .text s) → fs.Perm gs →
    Reordered (.object fs) (.object gs)

section

variable {v w : Value} {fs gs : Fields} {k : String}

theorem isScalar_get (h : ∀ e ∈ fs, ∃ s, e.2 = .text s) (k : String) : (Fields.get fs k).IsScalar := by
  unfold Fields.get
  cases hk : Entries.find? k fs with
  | none => trivial
  | some x =>
    obtain ⟨k', -, hmem⟩ := Entries.mem_of_find? hk
    obtain ⟨s, rfl⟩ := h _ hmem
    trivial

theorem reordered_of_same (hv : v.IsTexts) (hw : w.IsTexts) (h : v.same w = true) : Reordered v w := by
  have halike := (Bool.and_eq_true_iff.1 h).2
  obtain rfl | ⟨fs, rfl, hfs, hvs⟩ := hv
  · obtain rfl | ⟨gs, rfl, -⟩ := hw
    · exact .null
    · cases halike
  · obtain rfl | ⟨gs, rfl, hgs, hws⟩ := hw
    · cases halike
    · exact .object hfs hvs (Entries.perm_of_find? hfs hgs fun k =>
        find?_eq_of_alike hfs halike (isScalar_get hvs k) (isScalar_get hws k))

theorem Reordered.refl (h : v.IsTexts) : Reordered v v := by
  obtain rfl | ⟨fs, rfl, hfs, htexts⟩ := h
  · exact .null
  · exact .object hfs htexts (.refl fs)

theorem Reordered.eq (h : Reordered v w) (hv : v.InOrder) (hw : w.InOrder) : v = w := by
  cases h with
  | null => rfl
  | object _ _ hperm =>
    refine congrArg _ (hperm.eq_of_pairwise (fun e f _ _ hef hfe => ?_) (hv _ rfl) (hw _ rfl))
    exact absurd hfe (String.lt_asymm hef)

theorem Reordered.get_orElse_eq (h : Reordered v w) (k : String) :
    (v.orElse (.object [])).get k = (w.orElse (.object [])).get k := by
  cases h with
  | null => rfl
  | @object fs gs hfs _ hperm =>
    have horElse : ∀ hs : Fields, (Value.object hs).orElse (.object []) = .object hs :=
      fun hs => by cases hs <;> rfl
    rw [horElse, horElse, get_object, get_object, Fields.get, Fields.get, Entries.find?_of_perm hfs hperm]

end

end Value

/-! ## Reads of annotations -/

open Value

namespace Annotations

variable {v w : Value} {domain name : String}

theorem slice_congr (h : raw domain name v = raw domain name w) :
    slice domain name v = slice domain name w := by
  unfold slice
  rw [h]

theorem pairs_congr (h : raw domain name v = raw domain name w) :
    pairs domain name v = pairs domain name w := by
  unfold pairs
  rw [slice_congr h]

theorem integer?_congr (h : raw domain name v = raw domain name w) :
    integer? domain name v = integer? domain name w := by
  unfold integer?
  rw [h]

theorem raw_eq (h : Reordered v w) (domain name : String) :
    raw domain name v = raw domain name w := h.get_orElse_eq _

/-- An annotation of a group, under the rest of its name. -/
def inGroup? (domain name : String) (f : String × Value) : Option (String × Value) :=
  (Text.dropStart? (key domain (name ++ ".")) f.1).map (·, f.2)

theorem group_object (domain name : String) (fs : Fields) :
    group domain name (.object fs) = .ok (fs.filterMap (inGroup? domain name)) := by
  cases fs <;> rfl

/-- The annotations of a group, in the order of all annotations. -/
theorem group_eq (h : Reordered v w) (domain name : String) :
    ∃ fs gs, group domain name v = .ok fs ∧ group domain name w = .ok gs ∧
    Reordered (.object fs) (.object gs) := by
  cases h with
  | null => exact ⟨[], [], rfl, rfl, .object .nil (fun _ he => (List.not_mem_nil he).elim) .nil⟩
  | @object fs gs hfs htexts hperm =>
    refine ⟨_, _, group_object domain name fs, group_object domain name gs,
      .object ?_ (fun e he => ?_) (hperm.filterMap _)⟩
    · refine hfs.filterMap _ fun e f hne e' he' f' hf' => ?_
      obtain ⟨rest, hrest, rfl⟩ := Option.map_eq_some_iff.1 he'
      obtain ⟨rest', hrest', rfl⟩ := Option.map_eq_some_iff.1 hf'
      refine beq_eq_false_iff_ne.2 fun heq => beq_eq_false_iff_ne.1 hne ?_
      rw [Text.dropStart?_eq_some_iff.1 hrest, Text.dropStart?_eq_some_iff.1 hrest',
        show rest = rest' from heq]
    · obtain ⟨f, hf, he⟩ := List.mem_filterMap.1 he
      obtain ⟨rest, -, rfl⟩ := Option.map_eq_some_iff.1 he
      exact htexts f hf

end Annotations

/-! ## Declared actions -/

section

variable {α β ε : Type}

/-- Results for the elements of a list in another order. -/
theorem mapM_perm {f : α → Except ε β} {as bs : List α} {cs : List β} (h : as.Perm bs)
    (hcs : as.mapM f = .ok cs) :
    ∃ ds, bs.mapM f = .ok ds ∧ cs.Perm ds := by
  rw [mapM_eq_ok_iff] at hcs
  simp only [mapM_eq_ok_iff]
  induction h generalizing cs with
  | nil => exact ⟨cs, hcs, .refl cs⟩
  | cons a _ ih =>
    cases hcs with
    | cons ha hcs =>
      obtain ⟨ds, hds, hperm⟩ := ih hcs
      exact ⟨_, .cons ha hds, hperm.cons _⟩
  | swap a b _ =>
    cases hcs with
    | cons hb hcs =>
      cases hcs with
      | cons ha hcs => exact ⟨_, .cons ha (.cons hb hcs), .swap _ _ _⟩
  | trans _ _ ih ih' =>
    obtain ⟨ds, hds, hperm⟩ := ih hcs
    obtain ⟨es, hes, hperm'⟩ := ih' hds
    exact ⟨es, hes, hperm.trans hperm'⟩

/-- The error for a list is that of one of its elements. -/
theorem exists_of_mapM_error {f : α → Except ε β} {as : List α} {e : ε} (h : as.mapM f = .error e) :
    ∃ a ∈ as, f a = .error e := by
  induction as with
  | nil => cases h
  | cons a as ih =>
    rw [List.mapM_cons] at h
    cases ha : f a with
    | error e' =>
      rw [ha] at h
      cases h
      exact ⟨a, List.mem_cons_self, ha⟩
    | ok c =>
      cases has : as.mapM f with
      | error e' =>
        rw [ha, has] at h
        cases h
        obtain ⟨a', ha', hfa⟩ := ih has
        exact ⟨a', List.mem_cons_of_mem _ ha', hfa⟩
      | ok cs =>
        rw [ha, has] at h
        cases h

end

namespace Actions

theorem isAction_of_parseOne {name s : String} {e : Error}
    (h : parseOne name (.text s) = .error e) : e.IsAction := by
  unfold parseOne at h
  dsimp only at h
  split at h
  · cases h
  · cases h
    exact ⟨name, .inl rfl⟩
  · cases h
    exact ⟨name, .inr ⟨_, rfl⟩⟩

/-- An annotated action under its name. -/
def parseEntry (e : String × Value) : Except Error (String × Fields) := do return (e.1, ← parseOne e.1 e.2)

theorem parse_def (fs : Fields) :
    parse fs = fs.mapM parseEntry >>= fun actions => .ok (Table.ofList actions) := rfl

theorem isAction_of_parseEntry {fs : Fields} {e : Error} (htexts : ∀ e ∈ fs, ∃ s, e.2 = .text s)
    (h : fs.mapM parseEntry = .error e) : e.IsAction := by
  obtain ⟨⟨name, v⟩, hmem, he⟩ := exists_of_mapM_error h
  obtain ⟨s, hs⟩ := htexts _ hmem
  cases hs
  unfold parseEntry at he
  cases hone : parseOne name (.text s) with
  | ok fields =>
    rw [hone] at he
    cases he
  | error e' =>
    rw [hone] at he
    cases he
    exact isAction_of_parseOne hone

theorem distinct_of_parseEntry {fs : Fields} {as : List (String × Fields)} (hfs : Entries.Distinct fs)
    (h : fs.mapM parseEntry = .ok as) : Entries.Distinct as := by
  have hnames : fs.map (·.1) = as.map (·.1) := by
    rw [mapM_eq_ok_iff] at h
    induction h with
    | nil => rfl
    | cons he _ ih =>
      obtain ⟨fields, -, he⟩ := bind_eq_ok_iff.1 he
      cases he
      rw [List.map_cons, List.map_cons, ih (List.pairwise_cons.1 hfs).2]
  have hpairwise : (fs.map (·.1)).Pairwise fun m n => (m == n) = false := List.pairwise_map.2 hfs
  rw [hnames] at hpairwise
  exact List.pairwise_map.1 hpairwise

/-- Actions in another order are the same actions, or both times one of them cannot be read. -/
theorem parse_eq {fs gs : Fields} (h : Reordered (.object fs) (.object gs)) :
    (∃ as bs, parse fs = .ok as ∧ parse gs = .ok bs ∧ ∀ n, as.get? n = bs.get? n) ∨
      ∃ e f, parse fs = .error e ∧ parse gs = .error f ∧ e.IsAction ∧ f.IsAction := by
  cases h with
  | object hfs htexts hperm =>
    rw [parse_def, parse_def]
    cases has : fs.mapM parseEntry with
    | error e =>
      cases hbs : gs.mapM parseEntry with
      | error f =>
        exact .inr ⟨e, f, rfl, rfl, isAction_of_parseEntry htexts has,
          isAction_of_parseEntry (fun e he => htexts e (hperm.mem_iff.2 he)) hbs⟩
      | ok bs =>
        obtain ⟨as, has', -⟩ := mapM_perm hperm.symm hbs
        rw [has] at has'
        cases has'
    | ok as =>
      obtain ⟨bs, hbs, hperm'⟩ := mapM_perm hperm has
      have hdistinct : Entries.Distinct as.reverse :=
        List.pairwise_reverse.2 ((distinct_of_parseEntry hfs has).imp fun h => by rwa [BEq.comm])
      refine .inl ⟨_, Table.ofList bs, rfl, by rw [hbs]; rfl, fun n => ?_⟩
      rw [Table.get?_ofList, Table.get?_ofList]
      exact Entries.find?_of_perm hdistinct
        (((List.reverse_perm as).trans hperm').trans (List.reverse_perm bs).symm) n

end Actions

/-! ## What they ask for -/

/-- Settings that differ in the order of their declared actions only, or one error, or a declared action that
cannot be read both times, which `X` rules out. -/
def Demands (X : Prop) (x y : Except Error ServiceSettings) : Prop :=
  Paired SameSettings x y ∨ ¬ X ∧ IsActionFault x ∧ IsActionFault y

section

variable {X : Prop} {v w : Value} {x y : Except Error ServiceSettings}

theorem SameSettings.refl (a : ServiceSettings) : SameSettings a a := ⟨rfl, fun _ => rfl⟩

theorem Demands.of_eq (h : x = y) : Demands X x y := .inl (paired_of_eq SameSettings.refl h)

theorem Demands.bind {α : Type} (x : Except Error α) {f g : α → Except Error ServiceSettings}
    (h : ∀ a, Demands X (f a) (g a)) :
    Demands X (x >>= f) (x >>= g) := by
  cases x with
  | ok a => exact h a
  | error e => exact .inl (.error e)

/-- What reordered annotations ask for. -/
theorem demands_of_reordered (c : Config) (h : Reordered v w) (hX : X → v = w) :
    Demands X (ServiceSettings.parse c v) (ServiceSettings.parse c w) := by
  by_cases hx : X
  · exact .of_eq (congrArg _ (hX hx))
  have hraw := Annotations.raw_eq h c.domain.shown
  unfold ServiceSettings.parse
  simp only [hraw, Annotations.slice_congr (hraw _), Annotations.pairs_congr (hraw _),
    Annotations.integer?_congr (hraw _)]
  -- the annotations but the declared actions
  iterate 20 refine Demands.bind _ fun _ => ?_
  obtain ⟨fs, gs, hfs, hgs, hfg⟩ := Annotations.group_eq h c.domain.shown "actions"
  rw [hfs, hgs]
  rcases Actions.parse_eq hfg with ⟨as, bs, has, hbs, heq⟩ | ⟨e, f, he, hf, he', hf'⟩
  · show Demands X (Actions.parse fs >>= _) (Actions.parse gs >>= _)
    rw [has, hbs]
    exact .inl (.ok ⟨rfl, heq⟩)
  · show Demands X (Actions.parse fs >>= _) (Actions.parse gs >>= _)
    rw [he, hf]
    exact .inr ⟨hx, ⟨e, rfl, he'⟩, f, rfl, hf'⟩

end

end Balancer
